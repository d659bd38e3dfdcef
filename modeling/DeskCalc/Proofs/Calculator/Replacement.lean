import DeskCalc.Proofs.Calculator.Lines
import DeskCalc.Proofs.Token.Counting
import DeskCalc.Proofs.Token.Replacement

/-!
# The value of a line with replaced words

Where words become words that take signs as they do, the line is converted as before, operand by
operand, and only what is written for an operand may differ. So if what is written for the new
operand does to every stack what was written for the old one did, the line has the same value or is
refused in the same way. The two lines may be evaluated against different stores.

## Main definitions

* `Operand.Interchangeable` — what is written for two operands does the same to every stack

## Main results

* `convertible_append_word_iff` — whether a line is converted does not depend on its words
* `evaluate_replaceWords` — the value of a line whose operands are interchanged
-/

namespace DeskCalc

open Piece (Closes IsWord Opens replaceWords)
open Postfix (Entry entriesFrom run result)

variable {g : List Char → List Char} {store store' : Store}

/-! ### Interchangeable operands -/

/-- What is written for the one operand against the one store does to every stack what is written
for the other against the other. -/
def Operand.Interchangeable (store store' : Store) (a b : Operand) : Prop :=
  ∀ stack, run stack ((Token.operand b).pieces store') = run stack ((Token.operand a).pieces store)

/-- For interchangeable operands the same is written if it is the same for both of them. -/
theorem Operand.interchangeable_of_emit? {a b : Operand} (h : b.emit? store' = a.emit? store) :
    Interchangeable store store' a b := by
  intro stack
  rw [Token.pieces, Token.pieces, Postfix.ownEntries, Postfix.ownEntries, h]

namespace Postfix

/-- Runs do the same to every stack if the operands of the two lines are interchangeable. -/
theorem run_entriesFrom_mapWord {tokens : List Token}
    (h : ∀ a, Token.operand a ∈ tokens → Operand.Interchangeable store store' a (a.mapWord g))
    (pending : List Pending) (stack : List Int) :
    run stack ((entriesFrom store' pending (tokens.map (Token.mapWord g))).flatMap Entry.pieces) =
      run stack ((entriesFrom store pending tokens).flatMap Entry.pieces) := by
  induction tokens generalizing pending stack with
  | nil => rfl
  | cons t tokens ih =>
    have hrest := ih fun a ha => h a (List.mem_cons_of_mem t ha)
    -- A token writes entries that do the same in both lines, and leaves the same operators waiting.
    have hwritten : run stack ((written store' pending (t.mapWord g)).flatMap Entry.pieces) =
        run stack ((written store pending t).flatMap Entry.pieces) := by
      cases t with
      | symbol s => rfl
      | operand a => exact h a List.mem_cons_self stack
    have hpending : pendingAfter pending (t.mapWord g) = pendingAfter pending t := by
      cases t <;> rfl
    rw [List.map_cons, entriesFrom_cons, entriesFrom_cons, List.flatMap_append,
      List.flatMap_append, run_append, run_append, hwritten, hpending]
    exact congrArg _ (funext fun values => hrest _ values)

end Postfix

namespace Calculator

/-! ### Lines that are converted -/

/-- Whether a line is converted does not depend on the word between two texts. -/
theorem convertible_append_word_iff {w : List Char} (hw : IsWord w) (before behind : List Char) :
    Convertible (before ++ (w ++ behind)) ↔
      (depthAfter? 0 before).bind (fun d => depthAfter? d behind) = some 0 ∧
        Signs.Undoubled before ∧ Signs.Undoubled behind := by
  rw [Convertible, isBalanced_iff, depthAfter?_append_word hw, Signs.undoubled_append_word hw]

/-- A line whose words become words is converted exactly if the line itself is. -/
theorem convertible_replaceWords_iff (hg : ∀ w, IsWord w → IsWord (g w)) (line : List Char) :
    Convertible (replaceWords (fun _ => g) line) ↔ Convertible line := by
  refine iff_of_eq (Piece.apply_replaceWords (P := Convertible) ?_ line)
  intro before w behind _ hw _
  rw [convertible_append_word_iff hw, convertible_append_word_iff (hg w hw)]

/-- A line whose words become words that take signs as they do has the same value or is refused in
the same way, if its operands are interchangeable. -/
theorem evaluate_replaceWords (hg : ∀ w, IsWord w → IsWord (g w))
    (htakes : ∀ w, Token.takesSign (g w) = Token.takesSign w) {line : List Char}
    (h : ∀ a, Token.operand a ∈ Token.scan true line →
      Operand.Interchangeable store store' a (a.mapWord g)) :
    evaluate store' (String.ofList (replaceWords (fun _ => g) line)) =
      evaluate store (String.ofList line) := by
  refine evaluate_congr (convertible_replaceWords_iff hg line) fun _ => ?_
  rw [piecesOf, piecesOf, Token.scan_replaceWords hg htakes, Postfix.run_entriesFrom_mapWord h]

end Calculator

end DeskCalc
