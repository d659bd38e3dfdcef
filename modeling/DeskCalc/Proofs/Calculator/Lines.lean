import DeskCalc.Calculator
import DeskCalc.Proofs.Postfix.Run
import DeskCalc.Proofs.Postfix.Waiting

/-!
# Evaluating a line by its pieces

A line that is balanced and without doubled `*` and `/` is converted, and its value is the one value
that a run over the pieces of its postfix text leaves. Any other line is refused as an invalid
expression.

## Main definitions

* `Calculator.Convertible` — the lines that are converted
* `Calculator.piecesOf` — the pieces of the postfix text of a line

## Main results

* `convert_eq_ok_iff` — what a line is converted to
* `evaluate_of_convertible`, `evaluate_of_not_convertible` — the value of a line
* `evaluate_congr` — lines are evaluated alike if runs over their pieces are
* `evaluate_eq_ok_iff` — when a line has a value
* `evaluate_eq_error` — the ways in which a line is refused
-/

namespace DeskCalc.Calculator

open Postfix (Entry entriesFrom run result)

/-- A line is converted if its parentheses are balanced and neither `*` nor `/` is doubled. -/
def Convertible (line : List Char) : Prop := isBalanced line = true ∧ Signs.Undoubled line

/-- The pieces of the postfix text of a line that is converted. -/
def piecesOf (store : Store) (line : List Char) : List (List Char) :=
  (entriesFrom store [] (Token.scan true line)).flatMap Entry.pieces

/-- A line that is converted has its tokens and the entries written for them. -/
theorem convert_of_convertible {line : List Char} (h : Convertible line) (store : Store) :
    Postfix.convert store line =
      .ok ⟨Token.scan true line, entriesFrom store [] (Token.scan true line)⟩ := by
  rw [Postfix.convert, if_pos h.1, Token.ofLine_eq_ok_iff.mpr ⟨h.2, rfl⟩]
  rfl

theorem convert_of_not_convertible {line : List Char} (h : ¬ Convertible line) (store : Store) :
    Postfix.convert store line = .error .invalidExpression := by
  refine Postfix.convert_eq_error_iff.mpr ⟨?_, rfl⟩
  refine Classical.byContradiction fun hnot => h ?_
  obtain ⟨hbalanced, hundoubled⟩ := not_or.mp hnot
  exact ⟨Bool.not_eq_false _ ▸ hbalanced, not_or.mp hundoubled⟩

/-- Which lines are converted, and what they come to. -/
theorem convert_eq_ok_iff {store : Store} {line : List Char} {c : Postfix.Conversion} :
    Postfix.convert store line = .ok c ↔ Convertible line ∧
      c = ⟨Token.scan true line, entriesFrom store [] (Token.scan true line)⟩ := by
  by_cases h : Convertible line
  · rw [convert_of_convertible h, Except.ok.injEq]
    simp [h, eq_comm]
  · rw [convert_of_not_convertible h]
    simp [h]

/-- A line that is converted is evaluated by a run over its pieces. -/
theorem evaluate_of_convertible {line : String} (h : Convertible line.toList) (store : Store) :
    evaluate store line = run [] (piecesOf store line.toList) >>= result := by
  rw [evaluate, convert_of_convertible h, piecesOf, ← Postfix.piecesOf_render]
  rfl

theorem evaluate_of_not_convertible {line : String} (h : ¬ Convertible line.toList)
    (store : Store) : evaluate store line = .error .invalidExpression := by
  rw [evaluate, convert_of_not_convertible h]
  rfl

/-- Two lines have the same value or are refused in the same way if one is converted exactly if the
other is, and if a run over the pieces of the one comes to the same as a run over those of the
other. The lines may be evaluated against different stores. -/
theorem evaluate_congr {store store' : Store} {line line' : List Char}
    (hconvertible : Convertible line' ↔ Convertible line)
    (hrun : Convertible line → run [] (piecesOf store' line') = run [] (piecesOf store line)) :
    evaluate store' (String.ofList line') = evaluate store (String.ofList line) := by
  by_cases h : Convertible line
  · have h' := hconvertible.mpr h
    rw [evaluate_of_convertible (by rwa [String.toList_ofList]),
      evaluate_of_convertible (by rwa [String.toList_ofList]), String.toList_ofList,
      String.toList_ofList, hrun h]
  · have h' := mt hconvertible.mp h
    rw [evaluate_of_not_convertible (by rwa [String.toList_ofList]),
      evaluate_of_not_convertible (by rwa [String.toList_ofList])]

/-- A line has a value exactly if it is converted and a run over its pieces leaves this value. -/
theorem evaluate_eq_ok_iff {store : Store} {line : String} {v : Int} :
    evaluate store line = .ok v ↔
      Convertible line.toList ∧ run [] (piecesOf store line.toList) = .ok [v] := by
  by_cases h : Convertible line.toList
  · rw [evaluate_of_convertible h, bind_eq_ok_iff]
    simp [h, Postfix.result_eq_ok_iff]
  · rw [evaluate_of_not_convertible h]
    simp [h]

/-- A line is refused in one of three ways. -/
theorem evaluate_eq_error {store : Store} {line : String} {e : CalcError}
    (h : evaluate store line = .error e) :
    e = .invalidExpression ∨ e = .unknownVariable ∨ e = .divisionByZero := by
  rw [evaluate, bind_eq_error_iff] at h
  rcases h with hconvert | ⟨c, -, hvalue⟩
  · exact Or.inl (Postfix.convert_eq_error_iff.mp hconvert).2
  · exact Postfix.evaluate_eq_error hvalue

end DeskCalc.Calculator
