import DeskCalc.Proofs.Calculator.Acceptance
import DeskCalc.Proofs.Postfix.Operands

/-!
# Names that are not set

A name that is not set leaves no trace in the postfix text. So the line is refused unless what is
left of it lists an expression that has a value, and this takes operands that stand next to each
other or hold spaces: they bring the values that the name does not bring.

## Main definitions

* `Calculator.piecesLeft` — the pieces of a line without the operands that are left out

## Main results

* `entriesFrom_filter_isLeftOut` — operands that are left out leave no trace
* `evaluate_eq_error_iff_of_not_contains` — when a line with a name that is not set is refused
-/

namespace DeskCalc

open Postfix (Entry Lists entriesFrom pieceValue)

/-- Nothing is written for a name that is not set, with or without a minus sign. -/
theorem Operand.isLeftOut_of_not_contains {a : Operand} {store : Store}
    (h : isIdentifier a.word = true) (hunset : store.contains (String.ofList a.word) = false) :
    a.isLeftOut store = true := by
  rw [isLeftOut, emit?_of_not_contains h hunset]
  rfl

/-- Operands that are left out leave no trace among the entries. -/
theorem Postfix.entriesFrom_filter_isLeftOut (store : Store) (stack : List Pending)
    (tokens : List Token) :
    entriesFrom store stack (tokens.filter fun t => !t.isLeftOut store) =
      entriesFrom store stack tokens := by
  induction tokens generalizing stack with
  | nil => rfl
  | cons t tokens ih =>
    by_cases h : t.isLeftOut store = true
    · rw [List.filter_cons_of_neg (by simp [h]), ih, entriesFrom_cons]
      cases t with
      | symbol s => cases h
      | operand a =>
        have hnone : a.emit? store = none := Option.isNone_iff_eq_none.mp h
        rw [written_operand, hnone, Option.toList_none, List.nil_append, pendingAfter_operand]
    · rw [List.filter_cons_of_pos (by simp [h]), entriesFrom_cons, entriesFrom_cons, ih]

namespace Calculator

/-- The pieces of the postfix text of a line without the operands that are left out. -/
def piecesLeft (store : Store) (tokens : List Token) : List (List Char) :=
  (entriesFrom store [] (tokens.filter fun t => !t.isLeftOut store)).flatMap Entry.pieces

theorem piecesLeft_scan (store : Store) (line : List Char) :
    piecesLeft store (Token.scan true line) = piecesOf store line := by
  rw [piecesLeft, Postfix.entriesFrom_filter_isLeftOut, piecesOf]

/-- A line has a value exactly if it is balanced and what is left of it lists an expression without
a zero divisor. -/
theorem exists_evaluate_eq_ok_iff {store : Store} {line : String} {tokens : List Token}
    (htokens : Token.ofLine line.toList = .ok tokens) :
    (∃ v, evaluate store line = .ok v) ↔
      isBalanced line.toList = true ∧ ∃ e : Expr (List Char),
        Lists (piecesLeft store tokens) e ∧ ¬ e.HasZeroDivisor pieceValue := by
  obtain ⟨hundoubled, rfl⟩ := Token.ofLine_eq_ok_iff.mp htokens
  rw [piecesLeft_scan]
  constructor
  · rintro ⟨v, hv⟩
    obtain ⟨⟨hbalanced, -⟩, hrun⟩ := evaluate_eq_ok_iff.mp hv
    obtain ⟨e, hlists, hvalue⟩ := Postfix.run_eq_ok_singleton_iff.mp hrun
    refine ⟨hbalanced, e, hlists, fun hzero => ?_⟩
    rw [Expr.eval_eq_error_iff.mpr ⟨hzero, rfl⟩] at hvalue
    cases hvalue
  · rintro ⟨hbalanced, e, hlists, hzero⟩
    cases hvalue : e.eval pieceValue with
    | error err => exact absurd (Expr.eval_eq_error_iff.mp hvalue).1 hzero
    | ok v =>
      have hrun := Postfix.run_eq_ok_singleton_iff.mpr ⟨e, hlists, hvalue⟩
      exact ⟨v, evaluate_eq_ok_iff.mpr ⟨⟨hbalanced, hundoubled⟩, hrun⟩⟩

/-- A line with a name that is not set is refused exactly if it is not balanced or what is left of
it lists no expression without a zero divisor. It can only have a value where operands are
juxtaposed or bring extra pieces. -/
theorem evaluate_eq_error_iff_of_not_contains {store : Store} {line : String}
    {tokens : List Token} {a : Operand} (htokens : Token.ofLine line.toList = .ok tokens)
    (ha : .operand a ∈ tokens) (hname : isIdentifier a.word = true)
    (hunset : store.contains (String.ofList a.word) = false) :
    ((∃ e, evaluate store line = .error e ∧
        (e = .invalidExpression ∨ e = .unknownVariable ∨ e = .divisionByZero)) ↔
      ¬ (isBalanced line.toList = true ∧ ∃ e : Expr (List Char),
        Lists (piecesLeft store tokens) e ∧ ¬ e.HasZeroDivisor pieceValue)) ∧
    ((∃ v, evaluate store line = .ok v) →
      0 < Token.juxtapositions tokens + (tokens.flatMap Token.extraPieces).length) := by
  constructor
  · rw [← exists_evaluate_eq_ok_iff htokens]
    cases h : evaluate store line with
    | error e => simpa using evaluate_eq_error h
    | ok v => simp
  · rintro ⟨v, hv⟩
    obtain ⟨-, rfl⟩ := Token.ofLine_eq_ok_iff.mp htokens
    -- The name is left out, so something else brings the value that is missing.
    have hpos : 0 < (Token.scan true line.toList).countP (Token.isLeftOut store) :=
      List.countP_pos_iff.mpr ⟨_, ha, Operand.isLeftOut_of_not_contains hname hunset⟩
    exact Nat.lt_of_lt_of_le hpos (countP_isLeftOut_le hv)

/-- In a line with a literal that holds a space, its second number takes the place of the name. -/
theorem evaluate_of_not_contains_spaced :
    Token.ofLine "1 2+q".toList =
        .ok [.operand ⟨false, ['1', ' ', '2']⟩, .symbol (.op .add), .operand ⟨false, ['q']⟩] ∧
      isIdentifier ['q'] = true ∧ Store.empty.contains (String.ofList ['q']) = false ∧
      evaluate .empty "1 2+q" = .ok 3 := by
  decide +kernel

/-- A sum that lacks its second operand is refused, for it lists no expression. -/
theorem evaluate_eq_error_iff_of_not_contains_sum :
    (∃ e, evaluate .empty "1+q" = .error e ∧
        (e = .invalidExpression ∨ e = .unknownVariable ∨ e = .divisionByZero)) ↔
      ¬ (isBalanced "1+q".toList = true ∧ ∃ e : Expr (List Char),
        Lists (piecesLeft .empty
          [.operand ⟨false, ['1']⟩, .symbol (.op .add), .operand ⟨false, ['q']⟩]) e ∧
        ¬ e.HasZeroDivisor pieceValue) :=
  (evaluate_eq_error_iff_of_not_contains (a := ⟨false, ['q']⟩) (by decide +kernel) (by decide)
    (by decide) (by decide)).1

end Calculator

end DeskCalc
