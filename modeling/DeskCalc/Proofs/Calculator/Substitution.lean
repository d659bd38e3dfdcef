import DeskCalc.Proofs.Calculator.Expressions
import Mathlib.Data.List.Basic

/-!
# Replacing a parenthesised part by its value

A part of a line between parentheses contributes to the line what it comes to on its own, whatever
stands around it: it is cut into tokens on its own, its tokens are converted on their own, and a run
over its pieces does to any stack what it does to the empty one. So it may be replaced by any text
that has the same value, and in particular by the decimal text of this value.

## Main results

* `convertible_enclosed_iff` — enclosing a convertible text asks nothing more of the line
* `exists_piecesOf_enclosed` — an enclosed text brings its own pieces, one after the other
* `evaluate_enclosed_congr` — texts with the same value may be exchanged between parentheses
* `evaluate_enclosed_value` — a parenthesised part may be replaced by its value
-/

namespace DeskCalc

namespace Postfix

/-- A run that leaves one value on the empty stack pushes this value on any stack. -/
theorem run_of_run_nil {pieces : List (List Char)} {v : Int} (h : run [] pieces = .ok [v])
    (stack : List Int) : run stack pieces = .ok (v :: stack) :=
  run_on_top h stack

end Postfix

namespace Calculator

open Postfix (Entry entriesFrom run result)

/-! ### Between parentheses -/

variable {s t : List Char}

/-- A balanced text leaves the depth of the line around it as it was. -/
theorem depthAfter?_enclosed (hs : isBalanced s = true) (p q : List Char) :
    depthAfter? 0 (p ++ '(' :: (s ++ ')' :: q)) =
      (depthAfter? 0 p).bind fun d => depthAfter? d q := by
  rw [depthAfter?_append]
  refine congrArg _ (funext fun d => ?_)
  have hs' := depthAfter?_add (isBalanced_iff.mp hs) (d + 1)
  rw [Nat.zero_add] at hs'
  have hopen : depthStep? d '(' = some (d + 1) := rfl
  have hclose : depthStep? (d + 1) ')' = some d := rfl
  rw [depthAfter?_cons, hopen, Option.bind_some, depthAfter?_append, hs', Option.bind_some,
    depthAfter?_cons, hclose, Option.bind_some]

/-- Around a convertible text, a line is convertible exactly if the text before the parenthesis and
the text behind its partner leave no parenthesis open and double no character. -/
theorem convertible_enclosed_iff (hs : Convertible s) (p q : List Char) :
    Convertible (p ++ '(' :: (s ++ ')' :: q)) ↔
      (depthAfter? 0 p).bind (fun d => depthAfter? d q) = some 0 ∧
        Signs.Undoubled p ∧ Signs.Undoubled q := by
  rw [Convertible, isBalanced_iff, depthAfter?_enclosed hs.1,
    Signs.undoubled_append_cons (by decide) (by decide),
    Signs.undoubled_append_cons (by decide) (by decide)]
  simp [hs.2]

/-- A text between parentheses is cut into its own tokens. -/
theorem scan_enclosed (p s q : List Char) :
    Token.scan true (p ++ '(' :: (s ++ ')' :: q)) =
      Token.scan true p ++ .symbol .leftParen ::
        (Token.scan true s ++ .symbol .rightParen :: Token.scan false q) := by
  have hopen := @Token.scan_append_symbol .leftParen rfl true p (s ++ ')' :: q)
  have hclose := @Token.scan_append_symbol .rightParen rfl true s q
  refine hopen.trans ?_
  exact congrArg (fun tokens => Token.scan true p ++ .symbol .leftParen :: tokens) hclose

/-- A balanced text between parentheses brings its own pieces to those of the line around it. -/
theorem exists_piecesOf_enclosed (store : Store) (p q : List Char) :
    ∃ before behind, ∀ s, isBalanced s = true →
      piecesOf store (p ++ '(' :: (s ++ ')' :: q)) = before ++ piecesOf store s ++ behind := by
  refine ⟨(Postfix.writtenAll store [] (Token.scan true p)).flatMap Entry.pieces,
    (entriesFrom store (Postfix.pendingAfterAll (Token.scan true p))
      (Token.scan false q)).flatMap Entry.pieces, fun s hs => ?_⟩
  have hnesting : Token.nestingAfter? 0 (Token.scan true s) = some 0 := by
    rw [Token.nestingAfter?_scan, isBalanced_iff.mp hs]
  -- The tokens of the enclosed text meet a stack with the open parenthesis on top.
  have henclosed := @Postfix.entriesFrom_enclosed store [] _ hnesting
    (Postfix.pendingAfterAll (Token.scan true p)) (Token.scan false q)
  rw [List.nil_append] at henclosed
  rw [piecesOf, scan_enclosed, Postfix.entriesFrom_append, ← Postfix.pendingAfterAll,
    Postfix.entriesFrom_cons, Postfix.written_leftParen, Postfix.pendingAfter_leftParen,
    List.nil_append, henclosed, List.flatMap_append, List.flatMap_append, ← List.append_assoc,
    piecesOf]

/-- Texts with the same value may be exchanged between the parentheses of a line. -/
theorem evaluate_enclosed_congr {store : Store} {v : Int}
    (hs : evaluate store (String.ofList s) = .ok v)
    (ht : evaluate store (String.ofList t) = .ok v) (p q : List Char) :
    evaluate store (String.ofList (p ++ '(' :: (s ++ ')' :: q))) =
      evaluate store (String.ofList (p ++ '(' :: (t ++ ')' :: q))) := by
  rw [evaluate_eq_ok_iff, String.toList_ofList] at hs ht
  obtain ⟨hsline, hsrun⟩ := hs
  obtain ⟨htline, htrun⟩ := ht
  have hconvertible := (convertible_enclosed_iff hsline p q).trans
    (convertible_enclosed_iff htline p q).symm
  refine evaluate_congr hconvertible fun _ => ?_
  -- On the stack that the pieces before them leave, both texts push their common value.
  obtain ⟨before, behind, hpieces⟩ := exists_piecesOf_enclosed store p q
  rw [hpieces s hsline.1, hpieces t htline.1, Postfix.run_append, Postfix.run_append,
    Postfix.run_append, Postfix.run_append]
  cases run [] before with
  | error e => rfl
  | ok stack =>
    change (run stack (piecesOf store s) >>= _) = (run stack (piecesOf store t) >>= _)
    rw [Postfix.run_of_run_nil hsrun, Postfix.run_of_run_nil htrun]

/-- A parenthesised part of a line may be replaced by its value: the line has the same value or is
refused in the same way, whatever stands around the part. -/
theorem evaluate_enclosed_value {store : Store} {s : String} {v : Int}
    (hs : evaluate store s = .ok v) (p q : String) :
    evaluate store (p ++ "(" ++ s ++ ")" ++ q) =
      evaluate store (p ++ "(" ++ String.ofList (Numeral.render v) ++ ")" ++ q) := by
  have hstring : ∀ x : String, p ++ "(" ++ x ++ ")" ++ q =
      String.ofList (p.toList ++ '(' :: (x.toList ++ ')' :: q.toList)) := by
    intro x
    apply String.toList_injective
    simp
  rw [hstring, hstring, String.toList_ofList]
  refine evaluate_enclosed_congr ?_ (evaluate_render store v) p.toList q.toList
  rwa [String.ofList_toList]

/-- Two operands and a difference behind them are no expression, yet they have the negative value
that takes their place between the parentheses. -/
theorem evaluate_enclosed_value_of_juxtaposed :
    evaluate .empty "2 3-" = .ok (-1) ∧
      evaluate .empty ("4*" ++ "(" ++ "2 3-" ++ ")" ++ "-(1)") =
        evaluate .empty ("4*" ++ "(" ++ String.ofList (Numeral.render (-1)) ++ ")" ++ "-(1)") := by
  have h : evaluate .empty "2 3-" = .ok (-1) := by decide +kernel
  exact ⟨h, evaluate_enclosed_value h "4*" "-(1)"⟩

end Calculator

end DeskCalc
