import DeskCalc.Proofs.Postfix.Ordering

/-!
# The tiers of waiting operators

An operator comes to wait only on operators of a lower precedence, since all others are released
before it. So between two neighbouring parentheses that are open, below the lowest and above the
highest of them, the operators rise in precedence toward the top: there is at most one sum or
difference, and at most one product or quotient above it. The stack is therefore never much higher
than the parentheses are nested.

## Main definitions

* `Postfix.Rising` — the operators between open parentheses rise in precedence toward the top
* `Postfix.Tiered` — what the stack looks like after given tokens

## Main results

* `Rising.pendingAfter` — every token keeps the operators rising
* `Rising.length_lt` — the height of a stack is bounded by its open parentheses
* `tiered_pendingAfterAll` — the stack after the tokens of a line
-/

namespace DeskCalc

/-! ### Parentheses read so far -/

/-- One token opens or closes a parenthesis, or none. -/
theorem Token.add_count_of_nestingStep? {depth next : Nat} {t : Token}
    (h : nestingStep? depth t = some next) :
    next + [t].count (.symbol .rightParen) = depth + [t].count (.symbol .leftParen) := by
  rcases t with (o | _ | _) | a
  · cases h
    rfl
  · cases h
    rfl
  · cases depth with
    | zero => cases h
    | succ outer =>
      cases h
      rfl
  · cases h
    rfl

/-- The parentheses that are open after tokens are those that were open before and those that the
tokens open, less those that they close. -/
theorem Token.add_count_of_nestingAfter? {depth next : Nat} {tokens : List Token}
    (h : nestingAfter? depth tokens = some next) :
    next + tokens.count (.symbol .rightParen) = depth + tokens.count (.symbol .leftParen) := by
  induction tokens generalizing depth with
  | nil =>
    cases h
    rfl
  | cons t tokens ih =>
    rw [nestingAfter?_cons] at h
    obtain ⟨middle, hstep, hrest⟩ := Option.bind_eq_some_iff.mp h
    have hone := add_count_of_nestingStep? hstep
    have hall := ih hrest
    rw [← List.singleton_append, List.count_append, List.count_append]
    omega

namespace Postfix

/-- The operators that wait between neighbouring parentheses rise in precedence toward the top. -/
def Rising : List Pending → Prop
  | [] => True
  | .leftParen :: stack => Rising stack
  | .op o :: stack => Below stack o.precedence ∧ Rising stack

variable {stack : List Pending}

/-! ### Tokens keep the operators rising -/

/-- What lies deeper in the stack rises as well. -/
theorem Rising.of_append {above : List Pending} (h : Rising (above ++ stack)) : Rising stack := by
  induction above with
  | nil => exact h
  | cons p above ih =>
    cases p with
    | op o => exact ih h.2
    | leftParen => exact ih h

theorem Rising.of_suffix {below : List Pending} (h : Rising stack) (hbelow : below <:+ stack) :
    Rising below := by
  obtain ⟨above, rfl⟩ := hbelow
  exact h.of_append

/-- What does not yield to an operator has a lower precedence. -/
theorem below_dropWhile_yieldsTo (stack : List Pending) (o : Operator) :
    Below (stack.dropWhile (·.yieldsTo o)) o.precedence := by
  intro p hp
  have hnot := List.head?_dropWhile_not (·.yieldsTo o) stack
  rw [hp] at hnot
  have hyields : (Pending.op p).yieldsTo o = false := by simpa using hnot
  exact Nat.lt_of_not_le (of_decide_eq_false hyields)

/-- Every token keeps the operators rising. -/
theorem Rising.pendingAfter (h : Rising stack) (t : Token) : Rising (pendingAfter stack t) := by
  rcases t with (o | _ | _) | a
  · exact ⟨below_dropWhile_yieldsTo stack o, h.of_suffix (List.dropWhile_suffix _)⟩
  · exact h
  · -- The parenthesis goes with all that waits above it, and an older part is uncovered.
    exact h.of_suffix ((List.drop_suffix _ _).trans (List.dropWhile_suffix _))
  · exact h

theorem Rising.foldl (h : Rising stack) (tokens : List Token) :
    Rising (tokens.foldl Postfix.pendingAfter stack) := by
  induction tokens generalizing stack with
  | nil => exact h
  | cons t tokens ih => exact ih (h.pendingAfter t)

/-! ### What rising stacks look like -/

/-- Operators on top of a stack, the topmost first, fall in precedence. -/
theorem Rising.pairwise {segment : List Operator} (h : Rising (segment.map .op ++ stack)) :
    segment.Pairwise fun upper lower => lower.precedence < upper.precedence := by
  induction segment with
  | nil => exact List.Pairwise.nil
  | cons o segment ih =>
    have hsegment := ih h.2
    cases segment with
    | nil => exact List.pairwise_singleton _ _
    | cons p segment =>
      have hp : p.precedence < o.precedence := h.1 p rfl
      refine hsegment.cons fun q hq => ?_
      rcases List.mem_cons.mp hq with rfl | hq
      · exact hp
      · exact Nat.lt_trans (List.rel_of_pairwise_cons hsegment hq) hp

/-- Operators without a parenthesis between them, from the bottom to the top, rise in precedence. -/
theorem Rising.pairwise_of_infix (h : Rising stack) {segment : List Operator}
    (hsegment : segment.map .op <:+: stack.reverse) :
    segment.Pairwise fun lower upper => lower.precedence < upper.precedence := by
  rw [← List.reverse_infix, List.reverse_reverse, ← List.map_reverse] at hsegment
  obtain ⟨above, below, rfl⟩ := hsegment
  rw [List.append_assoc] at h
  exact List.pairwise_reverse.mp h.of_append.pairwise

/-- There are two precedences, so operators that rise are at most two. -/
theorem exists_two_tiers {segment : List Operator}
    (h : segment.Pairwise fun lower upper => lower.precedence < upper.precedence) :
    ∃ low high : Option Operator, segment = low.toList ++ high.toList ∧
      (∀ o ∈ low, o = .add ∨ o = .sub) ∧ ∀ o ∈ high, o = .mul ∨ o = .div := by
  simp only [← Operator.precedence_eq_one_iff, ← Operator.precedence_eq_two_iff]
  rcases segment with _ | ⟨o, _ | ⟨p, _ | ⟨q, segment⟩⟩⟩
  · exact ⟨none, none, rfl, by simp, by simp⟩
  · rcases o.precedence_eq with ho | ho
    · exact ⟨some o, none, rfl, by simpa using ho, by simp⟩
    · exact ⟨none, some o, rfl, by simp, by simpa using ho⟩
  · have hop : o.precedence < p.precedence := List.rel_of_pairwise_cons h List.mem_cons_self
    rcases o.precedence_eq with ho | ho
    · have hp : p.precedence = 2 := by rcases p.precedence_eq with hp | hp <;> omega
      exact ⟨some o, some p, rfl, by simpa using ho, by simpa using hp⟩
    · rcases p.precedence_eq with hp | hp <;> omega
  · have hop : o.precedence < p.precedence := List.rel_of_pairwise_cons h List.mem_cons_self
    have hpq : p.precedence < q.precedence := List.rel_of_pairwise_cons h.of_cons List.mem_cons_self
    rcases o.precedence_eq with ho | ho <;> rcases q.precedence_eq with hq | hq <;> omega

theorem below_three (stack : List Pending) : Below stack 3 := by
  intro o _
  cases o <;> decide

/-- The height of a stack is bounded by its open parentheses and by `n`, where an operator on its
top has a lower precedence than `n`. -/
theorem Rising.length_lt (h : Rising stack) {n : Nat} (hbelow : Below stack n) (hn : 0 < n) :
    stack.length < 3 * stack.count .leftParen + n := by
  induction stack generalizing n with
  | nil => simpa using hn
  | cons p stack ih =>
    cases p with
    | op o =>
      -- The operators below it are weaker, so they are fewer.
      have hlt := hbelow o rfl
      have hstack := ih h.2 h.1 o.one_le_precedence
      rw [List.length_cons, List.count_cons_of_ne (by simp)]
      omega
    | leftParen =>
      have hstack := ih h (below_three stack) (by decide)
      rw [List.length_cons, List.count_cons_self]
      omega

/-- The stack after the tokens `read`. From the bottom to the top, operators without a parenthesis
between them rise in precedence, so they are at most a sum or difference and, above it, a product
or quotient. The parentheses on the stack are those that are open. -/
structure Tiered (read : List Token) (stack : List Pending) : Prop where
  rising : ∀ segment : List Operator, segment.map .op <:+: stack.reverse →
    segment.Pairwise fun lower upper => lower.precedence < upper.precedence
  two_tiers : ∀ segment : List Operator, segment.map .op <:+: stack.reverse →
    ∃ low high : Option Operator, segment = low.toList ++ high.toList ∧
      (∀ o ∈ low, o = .add ∨ o = .sub) ∧ ∀ o ∈ high, o = .mul ∨ o = .div
  count_leftParen : (stack.count .leftParen : Int) =
    read.count (.symbol .leftParen) - read.count (.symbol .rightParen)
  length_le : stack.length ≤ 3 * stack.count .leftParen + 2

/-- After tokens that close no parenthesis too many, the stack is tiered. -/
theorem tiered_pendingAfterAll {read : List Token} {depth : Nat}
    (h : Token.nestingAfter? 0 read = some depth) : Tiered read (pendingAfterAll read) := by
  have hempty : Rising [] := trivial
  have hrising : Rising (pendingAfterAll read) := hempty.foldl read
  have hcount : (pendingAfterAll read).count .leftParen = depth := count_leftParen_foldl h
  have hopen := Token.add_count_of_nestingAfter? h
  have hheight := hrising.length_lt (below_three _) (by decide)
  refine ⟨fun segment hsegment => hrising.pairwise_of_infix hsegment,
    fun segment hsegment => exists_two_tiers (hrising.pairwise_of_infix hsegment), ?_, ?_⟩
  · omega
  · omega

end Postfix

end DeskCalc
