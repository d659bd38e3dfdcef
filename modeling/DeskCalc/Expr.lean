import DeskCalc.Operator

/-!
# Expressions

An expression over operands of any kind: an operand, an expression in parentheses, or an operator
between two expressions. Written out in order, it is read back with the same grouping if products
and quotients bind tighter than sums and differences and equal operators group to the left; such an
expression is called grouped.

## Main definitions

* `Expr` — expressions with their parentheses
* `Expr.Grouped` — the expressions that the two-level, left-associative reading yields
* `Expr.inOrder` — the expression as it is written in a line
* `Expr.postOrder` — its operands and operators, each operator behind its two operands
* `Expr.eval` — its value, or the refusal of a division by zero
* `Expr.HasZeroDivisor` — some division in it has divisor zero

## Main results

* `eval_eq_error_iff` — an expression has no value exactly if some division has divisor zero
-/

namespace DeskCalc

/-- Expressions over the operands `α`. -/
inductive Expr (α : Type)
  | operand (a : α)
  | paren (e : Expr α)
  | binary (o : Operator) (left right : Expr α)

namespace Expr

variable {α β : Type}

/-- How tightly an expression holds together: an operator as its precedence says, anything else
tighter than every operator. -/
def tightness : Expr α → Nat
  | operand _ => 3
  | paren _ => 3
  | binary o _ _ => o.precedence

theorem one_le_tightness (e : Expr α) : 1 ≤ e.tightness := by
  cases e with
  | operand a => simp [tightness]
  | paren e => simp [tightness]
  | binary o left right => exact o.one_le_precedence

/-- The expression is grouped as its written form is read: the left operand of an operator holds
together no less than the operator does, and the right one more. -/
def Grouped : Expr α → Prop
  | operand _ => True
  | paren e => e.Grouped
  | binary o left right =>
    o.precedence ≤ left.tightness ∧ o.precedence < right.tightness ∧ left.Grouped ∧ right.Grouped

instance Grouped.instDecidable : (e : Expr α) → Decidable e.Grouped
  | operand _ => isTrue trivial
  | paren e => Grouped.instDecidable e
  | binary o left right =>
    have := Grouped.instDecidable left
    have := Grouped.instDecidable right
    inferInstanceAs (Decidable (o.precedence ≤ left.tightness ∧ o.precedence < right.tightness ∧
      left.Grouped ∧ right.Grouped))

/-- The expression as it is written in a line. -/
def inOrder (ofOperand : α → List β) (ofSymbol : Symbol → β) : Expr α → List β
  | operand a => ofOperand a
  | paren e => ofSymbol .leftParen :: (e.inOrder ofOperand ofSymbol ++ [ofSymbol .rightParen])
  | binary o left right =>
    left.inOrder ofOperand ofSymbol ++ ofSymbol (.op o) :: right.inOrder ofOperand ofSymbol

/-- The operands and operators of the expression, each operator right behind its two operands. -/
def postOrder (ofOperand : α → β) (ofOperator : Operator → β) : Expr α → List β
  | operand a => [ofOperand a]
  | paren e => e.postOrder ofOperand ofOperator
  | binary o left right =>
    left.postOrder ofOperand ofOperator ++ right.postOrder ofOperand ofOperator ++ [ofOperator o]

/-- The operands of the expression in order. -/
def operands : Expr α → List α
  | operand a => [a]
  | paren e => e.operands
  | binary _ left right => left.operands ++ right.operands

/-- The value of the expression. -/
def eval (value : α → Int) : Expr α → Except CalcError Int
  | operand a => .ok (value a)
  | paren e => e.eval value
  | binary o left right => do
    let l ← left.eval value
    let r ← right.eval value
    o.apply l r

/-- Some division in the expression has a divisor whose value is zero. -/
def HasZeroDivisor (value : α → Int) : Expr α → Prop
  | operand _ => False
  | paren e => e.HasZeroDivisor value
  | binary o left right =>
    left.HasZeroDivisor value ∨ right.HasZeroDivisor value ∨
      (o = .div ∧ right.eval value = .ok 0)

/-! ### Values and their absence -/

/-- Division by zero is the only reason for an expression to have no value. -/
theorem eq_divisionByZero_of_eval {value : α → Int} {e : Expr α} {err : CalcError}
    (h : e.eval value = .error err) : err = .divisionByZero := by
  induction e generalizing err with
  | operand a => cases h
  | paren e ih => exact ih h
  | binary o left right ihl ihr =>
    rw [eval] at h
    cases hl : left.eval value with
    | error x =>
      rw [hl] at h
      cases h
      exact ihl hl
    | ok l =>
      cases hr : right.eval value with
      | error x =>
        rw [hl, hr] at h
        cases h
        exact ihr hr
      | ok r =>
        rw [hl, hr] at h
        exact (Operator.apply_eq_error_iff.mp h).2.2

/-- An expression has no value exactly if some division in it has divisor zero. -/
theorem eval_eq_error_iff {value : α → Int} {e : Expr α} {err : CalcError} :
    e.eval value = .error err ↔ e.HasZeroDivisor value ∧ err = .divisionByZero := by
  refine ⟨fun h => ⟨?_, eq_divisionByZero_of_eval h⟩, ?_⟩
  · induction e generalizing err with
    | operand a => cases h
    | paren e ih => exact ih h
    | binary o left right ihl ihr =>
      rw [eval] at h
      cases hl : left.eval value with
      | error x => exact Or.inl (ihl hl)
      | ok l =>
        cases hr : right.eval value with
        | error x => exact Or.inr (Or.inl (ihr hr))
        | ok r =>
          rw [hl, hr] at h
          obtain ⟨ho, hz, -⟩ := Operator.apply_eq_error_iff.mp h
          exact Or.inr (Or.inr ⟨ho, hz ▸ hr⟩)
  · rintro ⟨h, rfl⟩
    induction e with
    | operand a => exact h.elim
    | paren e ih => exact ih h
    | binary o left right ihl ihr =>
      rw [eval]
      cases hl : left.eval value with
      | error x => exact congrArg Except.error (eq_divisionByZero_of_eval hl)
      | ok l =>
        cases hr : right.eval value with
        | error x => exact congrArg Except.error (eq_divisionByZero_of_eval hr)
        | ok r =>
          -- Both operands have values, so the zero divisor is that of this very operator.
          rcases h with h | h | ⟨ho, hz⟩
          · exact absurd (ihl h) (by simp [hl])
          · exact absurd (ihr h) (by simp [hr])
          · rw [hr] at hz
            cases hz
            exact Operator.apply_eq_error_iff.mpr ⟨ho, rfl, rfl⟩

end Expr

end DeskCalc
