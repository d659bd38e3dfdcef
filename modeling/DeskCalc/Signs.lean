import DeskCalc.Error

/-!
# Runs of signs

Neighbouring signs are merged before a line is cut into pieces. The merging is a rewriting: four
rules replace two signs by one, each rule everywhere from left to right, one rule after the other,
and all of it again until nothing changes. A doubled `*` or `/` is refused.

## Main definitions

* `Signs.Rule.rewrite` — one rule applied everywhere in a text
* `Signs.settle` — all rules until nothing changes
* `Signs.simplify` — the merged text, or the refusal

## Main results

* `length_pass_lt` — a pass that changes the text shortens it, so the rewriting ends
* `pass_settle` — nothing is left to rewrite
-/

namespace DeskCalc.Signs

/-- The plus and the minus character. -/
def isSign (c : Char) : Bool := c == '+' || c == '-'

/-- Two neighbouring signs and the sign that takes their place. -/
structure Rule where
  first : Char
  second : Char
  result : Char

/-- Equal signs make a plus and different signs make a minus. -/
def rules : List Rule :=
  [⟨'+', '+', '+'⟩, ⟨'-', '-', '+'⟩, ⟨'+', '-', '-'⟩, ⟨'-', '+', '-'⟩]

/-- The text with the rule applied from left to right wherever its two signs stand together. -/
def Rule.rewrite (r : Rule) : List Char → List Char
  | a :: b :: s =>
    if a = r.first ∧ b = r.second then r.result :: r.rewrite s else a :: r.rewrite (b :: s)
  | s => s

/-- The text after each rule has been applied once, in order. -/
def pass (s : List Char) : List Char := rules.foldl (fun s r => r.rewrite s) s

theorem Rule.length_rewrite_le (r : Rule) (s : List Char) : (r.rewrite s).length ≤ s.length := by
  fun_induction Rule.rewrite r s with
  | case1 a b s h ih => simp only [List.length_cons]; omega
  | case2 a b s h ih => simp only [List.length_cons] at ih ⊢; omega
  | case3 s => exact Nat.le_refl _

/-- A rule that changes a text shortens it. -/
theorem Rule.length_rewrite_lt {r : Rule} {s : List Char} (h : r.rewrite s ≠ s) :
    (r.rewrite s).length < s.length := by
  fun_induction Rule.rewrite r s with
  | case1 a b s hab ih =>
    have := r.length_rewrite_le s
    simp only [List.length_cons]
    omega
  | case2 a b s hab ih =>
    have := ih fun heq => h (by rw [heq])
    simp only [List.length_cons] at this ⊢
    omega
  | case3 s => exact absurd rfl h

theorem length_foldl_rewrite_le (rs : List Rule) (s : List Char) :
    (rs.foldl (fun s r => r.rewrite s) s).length ≤ s.length := by
  induction rs generalizing s with
  | nil => exact Nat.le_refl _
  | cons r rs ih => exact Nat.le_trans (ih (r.rewrite s)) (r.length_rewrite_le s)

theorem length_foldl_rewrite_lt {rs : List Rule} {s : List Char}
    (h : rs.foldl (fun s r => r.rewrite s) s ≠ s) :
    (rs.foldl (fun s r => r.rewrite s) s).length < s.length := by
  induction rs generalizing s with
  | nil => exact absurd rfl h
  | cons r rs ih =>
    by_cases hr : r.rewrite s = s
    · -- The first rule leaves the text alone, so a later one changes it.
      rw [List.foldl_cons, hr] at h ⊢
      exact ih h
    · exact Nat.lt_of_le_of_lt (length_foldl_rewrite_le rs _) (Rule.length_rewrite_lt hr)

/-- A pass that changes the text shortens it. -/
theorem length_pass_lt {s : List Char} (h : pass s ≠ s) : (pass s).length < s.length :=
  length_foldl_rewrite_lt h

/-- The text after passes until one of them changes nothing. -/
def settle (s : List Char) : List Char :=
  if _ : pass s = s then s else settle (pass s)
termination_by s.length
decreasing_by exact length_pass_lt ‹_›

/-- Nothing is left to rewrite in a settled text. -/
@[simp] theorem pass_settle (s : List Char) : pass (settle s) = settle s := by
  fun_induction settle s with
  | case1 s h => exact h
  | case2 s h ih => exact ih

/-- Two neighbouring characters of the text are both `c`. -/
def hasDoubled (c : Char) : List Char → Bool
  | a :: b :: s => (a == c && b == c) || hasDoubled c (b :: s)
  | _ => false

/-- A doubled character is one that the text contains twice in a row. -/
theorem hasDoubled_iff {c : Char} {s : List Char} : hasDoubled c s = true ↔ [c, c] <:+: s := by
  fun_induction hasDoubled c s with
  | case1 a b s ih =>
    have hfront : [c, c] <+: a :: b :: s ↔ a = c ∧ b = c := by
      rw [List.cons_prefix_cons, List.cons_prefix_cons, eq_comm (a := c), eq_comm (a := c)]
      simp
    have hsplit : [c, c] <:+: a :: b :: s ↔ [c, c] <+: a :: b :: s ∨ [c, c] <:+: b :: s :=
      List.infix_cons_iff
    rw [Bool.or_eq_true, ih, hsplit, hfront]
    simp
  | case2 s h =>
    simp only [Bool.false_eq_true, false_iff]
    intro hs
    have hlen := hs.length_le
    match s, h with
    | [], _ => simp at hlen
    | [_], _ => simp at hlen
    | a :: b :: s, h => exact h a b s rfl

/-- The text with its runs of signs merged. A doubled `*` or `/` is refused. -/
def simplify (s : List Char) : Except CalcError (List Char) :=
  if hasDoubled '*' s || hasDoubled '/' s then .error .invalidExpression else .ok (settle s)

end DeskCalc.Signs
