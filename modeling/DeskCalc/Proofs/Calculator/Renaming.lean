import DeskCalc.Proofs.Calculator.Replacement
import DeskCalc.Proofs.Postfix.Operands
import Mathlib.Logic.Equiv.Basic

/-!
# Other names

What a name is called does not matter. Where the names of a line get other names, and the store
holds under each new name what another store holds under the old one, the line has the same value
against the one store as the line with the old names against the other, or is refused in the same
way. Nothing else in the two stores matters. Different names may even get the same name, if they
have the same value.

## Main definitions

* `Calculator.rename`, `Calculator.renamed` — a word, and a line, with other names
* `Calculator.KeepsNames` — names become names
* `Calculator.Matches` — the one store holds for the new words what the other holds for the old ones

## Main results

* `Operand.emit?_congr` — what is written for a name depends on its value only
* `evaluate_renamed` — the value of a line with other names
-/

namespace DeskCalc

open Piece (IsWord replaceWords)

/-- What is written for an operand depends on the store only through the value of its word. -/
theorem Operand.emit?_congr {store store' : Store} {a : Operand}
    (h : store'.get? (String.ofList a.word) = store.get? (String.ofList a.word)) :
    a.emit? store' = a.emit? store := by
  rw [emit?, emit?, value?, value?, h]

/-- For a name what is written depends on its value only, and not on its letters. -/
theorem Operand.emit?_congr_of_isIdentifier {store store' : Store} {a b : Operand}
    (ha : isIdentifier a.word = true) (hb : isIdentifier b.word = true)
    (hsign : b.negated = a.negated)
    (h : store'.get? (String.ofList b.word) = store.get? (String.ofList a.word)) :
    b.emit? store' = a.emit? store := by
  rw [emit?_of_isIdentifier ha, emit?_of_isIdentifier hb, value?, value?, h, hsign]

namespace Calculator

/-- A word with names called by `r`: a name becomes another one, and any other word stays. -/
def rename (r : String → String) (w : List Char) : List Char :=
  if isIdentifier w then (r (String.ofList w)).toList else w

/-- The line with its names called by `r`. -/
def renamed (r : String → String) (line : String) : String :=
  String.ofList (replaceWords (fun _ => rename r) line.toList)

/-- Every name gets a name again. -/
def KeepsNames (r : String → String) : Prop :=
  ∀ x : String, isIdentifier x.toList = true → isIdentifier (r x).toList = true

/-- The store `store'` has under the new name of each name of the line what `store` has under the
name, and the two agree on the other words of the line. -/
structure Matches (r : String → String) (line : String) (store store' : Store) : Prop where
  names : ∀ x : String, .word x.toList ∈ Piece.ofLine line.toList →
    isIdentifier x.toList = true → store'.get? (r x) = store.get? x
  others : ∀ x : String, .word x.toList ∈ Piece.ofLine line.toList →
    isIdentifier x.toList = false → store'.get? x = store.get? x

variable {r : String → String}

theorem rename_of_isIdentifier {w : List Char} (hw : isIdentifier w = true) :
    rename r w = (r (String.ofList w)).toList :=
  if_pos hw

theorem rename_of_not_isIdentifier {w : List Char} (hw : isIdentifier w = false) :
    rename r w = w :=
  if_neg (by rw [hw]; decide)

theorem isWord_rename (hr : KeepsNames r) {w : List Char} (hw : IsWord w) :
    IsWord (rename r w) := by
  cases hname : isIdentifier w with
  | true =>
    rw [rename_of_isIdentifier hname]
    exact Piece.isWord_of_isIdentifier (hr _ (by rwa [String.toList_ofList]))
  | false => rwa [rename_of_not_isIdentifier hname]

theorem takesSign_rename (hr : KeepsNames r) (w : List Char) :
    Token.takesSign (rename r w) = Token.takesSign w := by
  cases hname : isIdentifier w with
  | true =>
    have hnew := hr (String.ofList w) (by rwa [String.toList_ofList])
    rw [rename_of_isIdentifier hname, Token.takesSign, Token.takesSign, hname, hnew, Bool.or_true,
      Bool.or_true]
  | false => rw [rename_of_not_isIdentifier hname]

/-- The same is written for an operand of the line and for the operand with the other name. -/
theorem Matches.emit?_mapWord {line : String} {store store' : Store}
    (h : Matches r line store store') (hr : KeepsNames r) {a : Operand}
    (ha : .word a.word ∈ Piece.ofLine line.toList) :
    (a.mapWord (rename r)).emit? store' = a.emit? store := by
  have hx : (String.ofList a.word).toList = a.word := String.toList_ofList
  cases hname : isIdentifier a.word with
  | true =>
    have hword : (a.mapWord (rename r)).word = (r (String.ofList a.word)).toList :=
      rename_of_isIdentifier hname
    refine Operand.emit?_congr_of_isIdentifier hname ?_ rfl ?_
    · rw [hword]
      exact hr _ (by rwa [hx])
    · rw [hword, String.ofList_toList]
      exact h.names _ (by rwa [hx]) (by rwa [hx])
  | false =>
    have hsame : a.mapWord (rename r) = a := by
      rw [Operand.mapWord, rename_of_not_isIdentifier hname]
    rw [hsame]
    exact Operand.emit?_congr (h.others _ (by rwa [hx]) (by rwa [hx]))

/-- A line with other names has the value of the line, or is refused in the same way, against a
store that holds for the new names what the other store holds for the old ones. -/
theorem evaluate_renamed (hr : KeepsNames r) {store store' : Store} {line : String}
    (h : Matches r line store store') :
    evaluate store' (renamed r line) = evaluate store line := by
  -- The word of an operand is a word of the line, so the stores match on it.
  have hreplaced := @evaluate_replaceWords (rename r) store store' (fun _ => isWord_rename hr)
    (takesSign_rename hr) line.toList fun a ha => Operand.interchangeable_of_emit?
      (h.emit?_mapWord hr (Token.word_mem_of_operand_mem_scan ha))
  rwa [String.ofList_toList] at hreplaced

/-- Two names change places on the line and in the store. -/
theorem evaluate_renamed_swap :
    renamed (Equiv.swap "x" "y") "y--x*(x+3)" = "x--y*(y+3)" ∧
      evaluate ((Store.empty.put "x" 2).put "y" 5) "x--y*(y+3)" =
        evaluate ((Store.empty.put "x" 5).put "y" 2) "y--x*(x+3)" := by
  have hline : renamed (Equiv.swap "x" "y") "y--x*(x+3)" = "x--y*(y+3)" := by decide +kernel
  have hkeeps : KeepsNames (Equiv.swap "x" "y") := by
    intro x hx
    rw [Equiv.swap_apply_def]
    split
    · decide
    · split
      · decide
      · exact hx
  have hwords : ∀ x : String, .word x.toList ∈ Piece.ofLine "y--x*(x+3)".toList →
      x = "x" ∨ x = "y" ∨ x = "3" := by
    intro x hx
    have hpieces : Piece.ofLine "y--x*(x+3)".toList =
        [.word "y".toList, .symbol (.op .sub), .symbol (.op .sub), .word "x".toList,
          .symbol (.op .mul), .symbol .leftParen, .word "x".toList, .symbol (.op .add),
          .word "3".toList, .symbol .rightParen] := by decide +kernel
    rw [hpieces] at hx
    simp only [List.mem_cons, Piece.word.injEq, reduceCtorEq, List.not_mem_nil, String.toList_inj,
      false_or, or_false] at hx
    rcases hx with rfl | rfl | rfl | rfl <;> simp
  have hmatches : Matches (Equiv.swap "x" "y") "y--x*(x+3)" ((Store.empty.put "x" 5).put "y" 2)
      ((Store.empty.put "x" 2).put "y" 5) := by
    constructor
    · intro x hx hname
      rcases hwords x hx with rfl | rfl | rfl
      · decide +kernel
      · decide +kernel
      · cases hname
    · intro x hx hname
      rcases hwords x hx with rfl | rfl | rfl
      · cases hname
      · cases hname
      · decide +kernel
  have hvalue := evaluate_renamed hkeeps hmatches
  rw [hline] at hvalue
  exact ⟨hline, hvalue⟩

end Calculator

end DeskCalc
