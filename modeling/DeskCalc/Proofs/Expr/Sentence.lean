import DeskCalc.Expr
import DeskCalc.Proofs.Token.Nesting

/-!
# Sentences

Two grouped expressions with an operator between them can be regrouped into one, written just as
they are: the operator joins the last term of the one and the first term of the other. Hence tokens
that alternate between operands and operators, with parentheses where they may stand and closed as
they should be, are a sentence: some grouped expression is written that way.

## Main definitions

* `Expr.tokens` — the tokens that an expression is written with
* `Token.Alternates` — operands and operators take turns

## Main results

* `exists_join` — an operator joins two grouped expressions
* `exists_grouped_of_alternates` — balanced tokens that alternate are a sentence
-/

namespace DeskCalc

namespace Expr

variable {α β : Type}

/-! ### Joining expressions -/

variable (f : α → List β) (g : Symbol → β)

/-- The expression is written as the two others are, with the operator between them. -/
def Joins (e : Expr α) (o : Operator) (left right : Expr α) : Prop :=
  e.inOrder f g = left.inOrder f g ++ g (.op o) :: right.inOrder f g

variable {f g}

/-- What joins the left part of the right expression joins the whole of it. -/
theorem Joins.binary {e left right right' : Expr α} {o q : Operator}
    (h : e.Joins f g o left right) :
    (Expr.binary q e right').Joins f g o left (.binary q right right') := by
  rw [Joins, inOrder, inOrder, h, List.append_assoc, List.cons_append]

/-- What joins the right part of the left expression joins the whole of it. -/
theorem Joins.binary_left {e left left' right : Expr α} {o p : Operator}
    (h : e.Joins f g o left' right) :
    (Expr.binary p left e).Joins f g o (.binary p left left') right := by
  rw [Joins, inOrder, inOrder, h, List.append_assoc, List.cons_append]

/-- A product or quotient joins two terms to a term. -/
theorem exists_join_terms {o : Operator} (ho : o.precedence = 2) {left right : Expr α}
    (hl : left.Grouped) (hr : right.Grouped) (hlt : 2 ≤ left.tightness)
    (hrt : 2 ≤ right.tightness) :
    ∃ e : Expr α, e.Grouped ∧ 2 ≤ e.tightness ∧ e.Joins f g o left right := by
  have hplain : 3 ≤ right.tightness → (Expr.binary o left right).Grouped := by
    intro h
    exact ⟨by omega, by omega, hl, hr⟩
  induction right with
  | operand a => exact ⟨_, hplain (by simp [tightness]), Nat.le_of_eq ho.symm, rfl⟩
  | paren e ih => exact ⟨_, hplain (by simp [tightness]), Nat.le_of_eq ho.symm, rfl⟩
  | binary q r₁ r₂ ih₁ ih₂ =>
    obtain ⟨hq₁, hq₂, hr₁, hr₂⟩ := hr
    -- The right operand is a term, so its topmost operator is a product or quotient as well.
    have hq : 2 ≤ q.precedence := hrt
    -- The chain of factors on the right is taken apart from its far end.
    obtain ⟨e, he, het, hjoin⟩ := ih₁ hr₁ (by omega) fun h => ⟨by omega, by omega, hl, hr₁⟩
    have hq' : q.precedence = 2 := by rcases q.precedence_eq with h | h <;> omega
    exact ⟨.binary q e r₂, ⟨by omega, hq₂, he, hr₂⟩, hq, hjoin.binary⟩

/-- A sum or difference joins any two expressions. -/
theorem exists_join_sums {o : Operator} (ho : o.precedence = 1) {left right : Expr α}
    (hl : left.Grouped) (hr : right.Grouped) :
    ∃ e : Expr α, e.Grouped ∧ e.Joins f g o left right := by
  have hlt := left.one_le_tightness
  have hplain : 2 ≤ right.tightness → (Expr.binary o left right).Grouped := by
    intro h
    exact ⟨by omega, by omega, hl, hr⟩
  induction right with
  | operand a => exact ⟨_, hplain (by simp [tightness]), rfl⟩
  | paren e ih => exact ⟨_, hplain (by simp [tightness]), rfl⟩
  | binary q r₁ r₂ ih₁ ih₂ =>
    rcases q.precedence_eq with hq | hq
    · -- A sum on the right is summed up behind what is joined to its first part.
      obtain ⟨hq₁, hq₂, hr₁, hr₂⟩ := hr
      obtain ⟨e, he, hjoin⟩ := ih₁ hr₁ fun h => ⟨by omega, by omega, hl, hr₁⟩
      have het := e.one_le_tightness
      exact ⟨.binary q e r₂, ⟨by omega, hq₂, he, hr₂⟩, hjoin.binary⟩
    · exact ⟨_, hplain (Nat.le_of_eq hq.symm), rfl⟩

/-- A product or quotient joins the last term of an expression and a term. -/
theorem exists_join_term {o : Operator} (ho : o.precedence = 2) {left right : Expr α}
    (hl : left.Grouped) (hr : right.Grouped) (hrt : 2 ≤ right.tightness) :
    ∃ e : Expr α, e.Grouped ∧ e.Joins f g o left right := by
  have hterm : 2 ≤ left.tightness → ∃ e : Expr α, e.Grouped ∧ e.Joins f g o left right := by
    intro hlt
    obtain ⟨e, he, -, hjoin⟩ := exists_join_terms ho hl hr hlt hrt
    exact ⟨e, he, hjoin⟩
  cases left with
  | operand a => exact hterm (by simp [tightness])
  | paren e => exact hterm (by simp [tightness])
  | binary p l₁ l₂ =>
    rcases p.precedence_eq with hp | hp
    · -- In a sum on the left only the last term is joined.
      obtain ⟨hp₁, hp₂, hl₁, hl₂⟩ := hl
      obtain ⟨e, he, het, hjoin⟩ := exists_join_terms ho hl₂ hr (by omega) hrt
      exact ⟨.binary p l₁ e, ⟨hp₁, by omega, hl₁, he⟩, hjoin.binary_left⟩
    · exact hterm (Nat.le_of_eq hp.symm)

/-- An operator joins two grouped expressions to one that is written as they are. -/
theorem exists_join (o : Operator) {left right : Expr α} (hl : left.Grouped) (hr : right.Grouped) :
    ∃ e : Expr α, e.Grouped ∧ e.Joins f g o left right := by
  rcases o.precedence_eq with ho | ho
  · exact exists_join_sums ho hl hr
  · induction right with
    | operand a => exact exists_join_term ho hl hr (by simp [tightness])
    | paren e ih => exact exists_join_term ho hl hr (by simp [tightness])
    | binary q r₁ r₂ ih₁ ih₂ =>
      rcases q.precedence_eq with hq | hq
      · obtain ⟨hq₁, hq₂, hr₁, hr₂⟩ := hr
        obtain ⟨e, he, hjoin⟩ := ih₁ hr₁
        have het := e.one_le_tightness
        exact ⟨.binary q e r₂, ⟨by omega, hq₂, he, hr₂⟩, hjoin.binary⟩
      · exact exists_join_term ho hl hr (Nat.le_of_eq hq.symm)

/-! ### Tokens of an expression -/

/-- The tokens that an expression is written with. -/
def tokens (operand : α → Operand) (e : Expr α) : List Token :=
  e.inOrder (fun a => [.operand (operand a)]) .symbol

variable {operand : α → Operand}

@[simp] theorem tokens_operand (a : α) :
    (Expr.operand a).tokens operand = [.operand (operand a)] := rfl

@[simp] theorem tokens_paren (e : Expr α) : (paren e).tokens operand =
    .symbol .leftParen :: (e.tokens operand ++ [.symbol .rightParen]) := rfl

@[simp] theorem tokens_binary (o : Operator) (left right : Expr α) :
    (binary o left right).tokens operand =
      left.tokens operand ++ .symbol (.op o) :: right.tokens operand := rfl

theorem nestingAfter?_tokens (depth : Nat) (e : Expr α) :
    Token.nestingAfter? depth (e.tokens operand) = some depth := by
  induction e generalizing depth with
  | operand a => rfl
  | paren e ih =>
    rw [tokens_paren, Token.nestingAfter?_cons, Token.nestingStep?_leftParen, Option.bind_some,
      Token.nestingAfter?_append, ih]
    rfl
  | binary o left right ihl ihr =>
    rw [tokens_binary, Token.nestingAfter?_append, ihl, Option.bind_some,
      Token.nestingAfter?_cons, Token.nestingStep?_op, Option.bind_some, ihr]

theorem isBalanced_of_scan {e : Expr α} {line : List Char}
    (h : Token.scan true line = e.tokens operand) : isBalanced line = true := by
  rw [isBalanced_iff, ← Token.nestingAfter?_scan 0 true, h, nestingAfter?_tokens]

theorem operand_mem_tokens_iff {e : Expr α} {b : Operand} :
    .operand b ∈ e.tokens operand ↔ ∃ a ∈ e.operands, operand a = b := by
  induction e with
  | operand a => simp [operands, eq_comm]
  | paren e ih => simp [operands, ih]
  | binary o left right ihl ihr => simp [operands, ihl, ihr, or_and_right, exists_or]

end Expr

namespace Token

/-- Operands and operators take turns in the tokens, beginning with an operand if one is due; an
opening parenthesis stands where an operand is due and a closing one where none is. -/
inductive Alternates : Bool → List Token → Prop
  | nil : Alternates false []
  | operand (a : Operand) {tokens : List Token} :
      Alternates false tokens → Alternates true (operand a :: tokens)
  | leftParen {tokens : List Token} :
      Alternates true tokens → Alternates true (symbol .leftParen :: tokens)
  | rightParen {tokens : List Token} :
      Alternates false tokens → Alternates false (symbol .rightParen :: tokens)
  | op (o : Operator) {tokens : List Token} :
      Alternates true tokens → Alternates false (symbol (.op o) :: tokens)

/-- What stands behind an expression in alternating tokens: the end of the line, or the parenthesis
that encloses the expression and whatever follows it. -/
inductive Ending : Nat → List Token → Prop
  | nil : Ending 0 []
  | close {outer : Nat} {rest : List Token} : Alternates false rest →
      nestingAfter? outer rest = some 0 → Ending (outer + 1) (symbol .rightParen :: rest)

/-- The tokens are a grouped expression and an ending. -/
def BeginsExpr (depth : Nat) (tokens : List Token) : Prop :=
  ∃ (e : Expr Operand) (rest : List Token),
    e.Grouped ∧ tokens = e.tokens id ++ rest ∧ Ending depth rest

/-- The tokens are an ending, or an operator goes before a grouped expression and an ending. -/
def BeginsTail (depth : Nat) (tokens : List Token) : Prop :=
  Ending depth tokens ∨
    ∃ (o : Operator) (rest : List Token), tokens = symbol (.op o) :: rest ∧ BeginsExpr depth rest

/-- An expression and the tail behind it are an expression and an ending. -/
theorem beginsExpr_append {depth : Nat} {e : Expr Operand} {rest : List Token}
    (he : e.Grouped) (h : BeginsTail depth rest) : BeginsExpr depth (e.tokens id ++ rest) := by
  rcases h with hending | ⟨o, tail, rfl, e', rest, he', rfl, hending⟩
  · exact ⟨e, rest, he, rfl, hending⟩
  · obtain ⟨joined, hjoined, hjoin⟩ :=
      @Expr.exists_join _ _ (fun a => [operand (id a)]) symbol o _ _ he he'
    refine ⟨joined, rest, hjoined, ?_, hending⟩
    have htokens : joined.tokens id = e.tokens id ++ symbol (.op o) :: e'.tokens id := hjoin
    rw [htokens, List.append_assoc, List.cons_append]

/-- Alternating tokens begin with an expression where an operand is due, and with the tail of one
where none is. -/
theorem begins_of_alternates {due : Bool} {tokens : List Token} {depth : Nat}
    (h : Alternates due tokens) (hnesting : nestingAfter? depth tokens = some 0) :
    if due then BeginsExpr depth tokens else BeginsTail depth tokens := by
  -- What follows a parenthesised expression is no direct part of the tokens behind the
  -- parenthesis, so the induction is on the number of tokens.
  induction hn : tokens.length using Nat.strongRecOn generalizing due tokens depth with
  | ind n ih =>
    cases h with
    | nil =>
      cases hnesting
      exact Or.inl .nil
    | @operand a tokens h =>
      have hrest := ih tokens.length (by simp [← hn]) h hnesting rfl
      exact beginsExpr_append (e := .operand a) trivial hrest
    | @leftParen tokens h =>
      obtain ⟨e, rest, he, rfl, hending⟩ :=
        @ih tokens.length (by simp [← hn]) true tokens (depth + 1) h hnesting rfl
      cases hending with
      | @close _ more hmore hnesting' =>
        have hlength : more.length < n := by
          simp only [List.length_cons, List.length_append] at hn
          omega
        have hrest := ih more.length hlength hmore hnesting' rfl
        have hparen := beginsExpr_append (e := .paren e) he hrest
        simpa using hparen
    | @rightParen tokens h =>
      cases depth with
      | zero => cases hnesting
      | succ outer => exact Or.inl (.close h hnesting)
    | @op o tokens h =>
      have hrest := ih tokens.length (by simp [← hn]) h hnesting rfl
      exact Or.inr ⟨o, tokens, rfl, hrest⟩

/-- Balanced tokens that alternate, beginning with an operand, are a sentence. -/
theorem exists_grouped_of_alternates {tokens : List Token} (h : Alternates true tokens)
    (hnesting : nestingAfter? 0 tokens = some 0) :
    ∃ e : Expr Operand, e.Grouped ∧ e.tokens id = tokens := by
  obtain ⟨e, rest, he, rfl, hending⟩ := begins_of_alternates h hnesting
  cases hending
  exact ⟨e, he, (List.append_nil _).symm⟩

end Token

end DeskCalc
