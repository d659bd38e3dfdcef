import DeskCalc.Expr

/-!
# The grammar of expressions

A sum is a term, or a sum and a term with a plus or a minus between them. A term is a factor, or a
term and a factor with a product or a quotient between them. A factor is an operand or a sum in
parentheses. The grouped expressions are the sums of this grammar, and those that hold together as
terms and factors do are its terms and factors.

## Main definitions

* `Expr.IsSum`, `Expr.IsTerm`, `Expr.IsFactor` — the two-level grammar, stated by the operators

## Main results

* `grouped_iff_isSum` — the grouped expressions are the sums of the grammar
* `isTerm_iff`, `isFactor_iff` — its terms and factors are those that hold together as tightly
-/

namespace DeskCalc.Expr

variable {α : Type}

mutual

/-- A term, or a sum and a term with `+` or `-` between them. -/
inductive IsSum : Expr α → Prop
  | term {e : Expr α} : IsTerm e → IsSum e
  | binary {o : Operator} {left right : Expr α} :
      o = .add ∨ o = .sub → IsSum left → IsTerm right → IsSum (.binary o left right)

/-- A factor, or a term and a factor with `*` or `/` between them. -/
inductive IsTerm : Expr α → Prop
  | factor {e : Expr α} : IsFactor e → IsTerm e
  | binary {o : Operator} {left right : Expr α} :
      o = .mul ∨ o = .div → IsTerm left → IsFactor right → IsTerm (.binary o left right)

/-- An operand, or a sum in parentheses. -/
inductive IsFactor : Expr α → Prop
  | operand (a : α) : IsFactor (.operand a)
  | paren {e : Expr α} : IsSum e → IsFactor (.paren e)

end

/-! ### What the grammar derives is grouped -/

mutual

theorem IsSum.grouped {e : Expr α} : e.IsSum → e.Grouped
  | .term h => h.grouped.1
  | @IsSum.binary _ _ left _ ho hleft hright => by
    have hone := Operator.precedence_eq_one_iff.mpr ho
    obtain ⟨hr, hrt⟩ := hright.grouped
    have hlt := left.one_le_tightness
    exact ⟨by omega, by omega, hleft.grouped, hr⟩

theorem IsTerm.grouped {e : Expr α} : e.IsTerm → e.Grouped ∧ 2 ≤ e.tightness
  | .factor h => h.grouped.imp_right Nat.le_of_succ_le
  | .binary ho hleft hright => by
    have htwo := Operator.precedence_eq_two_iff.mpr ho
    obtain ⟨hl, hlt⟩ := hleft.grouped
    obtain ⟨hr, hrt⟩ := hright.grouped
    exact ⟨⟨by omega, by omega, hl, hr⟩, Nat.le_of_eq htwo.symm⟩

theorem IsFactor.grouped {e : Expr α} : e.IsFactor → e.Grouped ∧ 3 ≤ e.tightness
  | .operand _ => ⟨trivial, Nat.le_refl 3⟩
  | .paren h => ⟨h.grouped, Nat.le_refl 3⟩

end

/-! ### What is grouped is derived -/

/-- A grouped expression is derived at the level at which it holds together. -/
theorem Grouped.derived {e : Expr α} (h : e.Grouped) :
    e.IsSum ∧ (2 ≤ e.tightness → e.IsTerm) ∧ (3 ≤ e.tightness → e.IsFactor) := by
  -- A factor is a term, and a term is a sum.
  have hfactor : ∀ {e : Expr α}, e.IsFactor →
      e.IsSum ∧ (2 ≤ e.tightness → e.IsTerm) ∧ (3 ≤ e.tightness → e.IsFactor) := fun hf =>
    ⟨.term (.factor hf), fun _ => .factor hf, fun _ => hf⟩
  induction e with
  | operand a => exact hfactor (.operand a)
  | paren e ih => exact hfactor (.paren (ih h).1)
  | binary o left right ihl ihr =>
    obtain ⟨hlt, hrt, hl, hr⟩ := h
    have htight : (binary o left right).tightness = o.precedence := rfl
    rcases o.precedence_eq with ho | ho
    · have hsum : (binary o left right).IsSum :=
        .binary (Operator.precedence_eq_one_iff.mp ho) (ihl hl).1 ((ihr hr).2.1 (by omega))
      exact ⟨hsum, fun h => by omega, fun h => by omega⟩
    · have hterm : (binary o left right).IsTerm :=
        .binary (Operator.precedence_eq_two_iff.mp ho) ((ihl hl).2.1 (by omega))
          ((ihr hr).2.2 (by omega))
      exact ⟨.term hterm, fun _ => hterm, fun h => by omega⟩

/-- The grouped expressions are the sums of the grammar. -/
theorem grouped_iff_isSum {e : Expr α} : e.Grouped ↔ e.IsSum :=
  ⟨fun h => h.derived.1, IsSum.grouped⟩

theorem isTerm_iff {e : Expr α} : e.IsTerm ↔ e.Grouped ∧ 2 ≤ e.tightness :=
  ⟨IsTerm.grouped, fun h => h.1.derived.2.1 h.2⟩

theorem isFactor_iff {e : Expr α} : e.IsFactor ↔ e.Grouped ∧ 3 ≤ e.tightness :=
  ⟨IsFactor.grouped, fun h => h.1.derived.2.2 h.2⟩

end DeskCalc.Expr
