import DeskCalc.Proofs.Expr.Sentence

/-!
# One reading only

Tokens are those of at most one grouped expression. The operator that was applied last is the
rightmost among the weakest that stand outside all parentheses: what stands before it holds no
weaker one, and what stands behind it holds only stronger ones. So two expressions with the same
tokens fall apart at the same operator.

## Main results

* `tightness_le_precedence` — how weak an operator outside all parentheses can be
* `eq_of_tokens_eq` — grouped expressions with the same tokens are equal
-/

namespace DeskCalc.Expr

variable {α : Type} {operand : α → Operand}

/-- Behind an expression and an operator no parenthesis is open, so what follows closes exactly the
parentheses that it opens. -/
theorem nestingAfter?_behind {left : Expr α} {o : Operator} {mid : List Token}
    (h : Token.nestingAfter? 0 (left.tokens operand ++ .symbol (.op o) :: mid) = some 0) :
    Token.nestingAfter? 0 mid = some 0 := by
  rwa [Token.nestingAfter?_append, nestingAfter?_tokens, Option.bind_some,
    Token.nestingAfter?_cons, Token.nestingStep?_op, Option.bind_some] at h

/-- In a grouped expression no operator outside all parentheses is weaker than the expression is
tight. -/
theorem tightness_le_precedence {e : Expr α} (hgrouped : e.Grouped) {o : Operator}
    {before behind : List Token} (htokens : e.tokens operand = before ++ .symbol (.op o) :: behind)
    (hnesting : Token.nestingAfter? 0 before = some 0) : e.tightness ≤ o.precedence := by
  induction e generalizing before behind with
  | operand a =>
    rcases before with _ | ⟨t, before⟩ <;> simp at htokens
  | paren e ih =>
    rw [tokens_paren] at htokens
    rcases before with _ | ⟨t, before⟩
    · simp at htokens
    · -- Before the last token the parenthesis that comes first is still open.
      obtain ⟨rfl, hinner⟩ := List.cons.inj htokens
      have hprefix : ∃ rest, e.tokens operand = before ++ rest := by
        rcases List.append_eq_append_iff.mp hinner with ⟨rest, rfl, hrest⟩ | ⟨rest, hrest, -⟩
        · cases rest <;> simp at hrest
        · exact ⟨rest, hrest⟩
      obtain ⟨rest, hrest⟩ := hprefix
      have hclosed : Token.nestingAfter? 0 (e.tokens operand) = some 0 := nestingAfter?_tokens 0 e
      rw [hrest, Token.nestingAfter?_append] at hclosed
      obtain ⟨depth, hdepth, -⟩ := Option.bind_eq_some_iff.mp hclosed
      have hopen : Token.nestingAfter? 1 before = some 0 := hnesting
      rw [← Nat.zero_add 1, Token.nestingAfter?_add hdepth 1] at hopen
      cases hopen
  | binary q left right ihl ihr =>
    obtain ⟨hl, hr, hgl, hgr⟩ := hgrouped
    change q.precedence ≤ o.precedence
    rw [tokens_binary] at htokens
    rcases List.append_eq_append_iff.mp htokens with ⟨mid, rfl, hmid⟩ | ⟨mid, hleft, hmid⟩
    · rcases mid with _ | ⟨t, mid⟩
      · cases hmid
        exact Nat.le_refl _
      · -- The operator stands in the right operand.
        obtain ⟨rfl, hright⟩ := List.cons.inj hmid
        exact Nat.le_trans (Nat.le_of_lt hr) (ihr hgr hright (nestingAfter?_behind hnesting))
    · rcases mid with _ | ⟨t, mid⟩
      · cases hmid
        exact Nat.le_refl _
      · -- The operator stands in the left operand.
        obtain ⟨rfl, -⟩ := List.cons.inj hmid
        exact Nat.le_trans hl (ihl hgl hleft hnesting)

/-- The left operand of one expression does not reach into the right operand of another with the
same tokens. -/
theorem not_overlaps {left right left' right' : Expr α} {o o' : Operator} {mid : List Token}
    (hgrouped : (binary o left right).Grouped) (hgrouped' : (binary o' left' right').Grouped)
    (hleft : left'.tokens operand = left.tokens operand ++ .symbol (.op o) :: mid)
    (hright : right.tokens operand = mid ++ .symbol (.op o') :: right'.tokens operand) : False := by
  obtain ⟨-, hr, -, hgr⟩ := hgrouped
  obtain ⟨hl', -, hgl', -⟩ := hgrouped'
  have hnesting : Token.nestingAfter? 0 (left'.tokens operand) = some 0 :=
    nestingAfter?_tokens 0 left'
  rw [hleft] at hnesting
  -- The operator of the one is outside all parentheses in the left operand of the other, and the
  -- other way round; each then would have to be weaker than the other.
  have hle := tightness_le_precedence hgl' hleft (nestingAfter?_tokens 0 left)
  have hle' := tightness_le_precedence hgr hright (nestingAfter?_behind hnesting)
  omega

/-- Nothing tighter than every operator has the tokens of two operands and an operator. -/
theorem tokens_ne_of_tightness {e left right : Expr α} {o : Operator} (hgrouped : e.Grouped)
    (htight : e.tightness = 3) : e.tokens operand ≠ (binary o left right).tokens operand := by
  intro htokens
  have hle := tightness_le_precedence hgrouped htokens (nestingAfter?_tokens 0 left)
  have := o.precedence_eq
  omega

/-- Grouped expressions with the same tokens are equal. -/
theorem eq_of_tokens_eq (hinjective : Function.Injective operand) {e e' : Expr α}
    (hgrouped : e.Grouped) (hgrouped' : e'.Grouped)
    (htokens : e.tokens operand = e'.tokens operand) : e = e' := by
  induction e generalizing e' with
  | operand a =>
    cases e' with
    | operand b =>
      have heq : operand a = operand b := by simpa using htokens
      rw [hinjective heq]
    | paren e' => simp at htokens
    | binary o left right => exact absurd htokens (tokens_ne_of_tightness hgrouped rfl)
  | paren e ih =>
    cases e' with
    | operand b => simp at htokens
    | paren e' =>
      have hinner : e.tokens operand = e'.tokens operand := by simpa using htokens
      have hinner' : e'.Grouped := hgrouped'
      rw [ih hgrouped hinner' hinner]
    | binary o left right => exact absurd htokens (tokens_ne_of_tightness hgrouped rfl)
  | binary o left right ihl ihr =>
    cases e' with
    | operand b => exact absurd htokens.symm (tokens_ne_of_tightness hgrouped' rfl)
    | paren e' => exact absurd htokens.symm (tokens_ne_of_tightness hgrouped' rfl)
    | binary o' left' right' =>
      rw [tokens_binary, tokens_binary] at htokens
      -- Either both fall apart at the same operator or one left operand is longer.
      rcases List.append_eq_append_iff.mp htokens with ⟨mid, hleft, hmid⟩ | ⟨mid, hleft, hmid⟩
      · rcases mid with _ | ⟨t, mid⟩
        · obtain ⟨ho, hright⟩ := List.cons.inj hmid
          cases ho
          rw [ihl hgrouped.2.2.1 hgrouped'.2.2.1 (by simpa using hleft.symm),
            ihr hgrouped.2.2.2 hgrouped'.2.2.2 hright]
        · obtain ⟨rfl, hright⟩ := List.cons.inj hmid
          exact (not_overlaps hgrouped hgrouped' hleft hright).elim
      · rcases mid with _ | ⟨t, mid⟩
        · obtain ⟨ho, hright⟩ := List.cons.inj hmid
          cases ho
          rw [ihl hgrouped.2.2.1 hgrouped'.2.2.1 (by simpa using hleft),
            ihr hgrouped.2.2.2 hgrouped'.2.2.2 hright.symm]
        · obtain ⟨rfl, hright⟩ := List.cons.inj hmid
          exact (not_overlaps hgrouped' hgrouped hleft hright).elim

end DeskCalc.Expr
