import DeskCalc.Error

/-!
# Operators

The four operators on whole numbers, in two levels of precedence. Division drops the fraction,
that is, it truncates toward zero.

## Main definitions

* `Operator` — sum, difference, product and quotient
* `Operator.quotient` — the quotient without its fraction
* `Operator.apply` — the value of an operator, refused for a zero divisor
* `Symbol` — an operator or a parenthesis: the characters that cut a line into pieces

## Main results

* `quotient_eq_tdiv` — the quotient is the one that truncates toward zero
* `apply_eq_error_iff` — only a zero divisor keeps an operator from having a value
-/

namespace DeskCalc

/-- The operators of the calculator. -/
inductive Operator
  | add
  | sub
  | mul
  | div
  deriving DecidableEq

namespace Operator

/-- The character that spells an operator. -/
def char : Operator → Char
  | add => '+'
  | sub => '-'
  | mul => '*'
  | div => '/'

/-- The operator that a character spells. -/
def ofChar? (c : Char) : Option Operator :=
  if c = '+' then some add
  else if c = '-' then some sub
  else if c = '*' then some mul
  else if c = '/' then some div
  else none

@[simp] theorem ofChar?_char (o : Operator) : ofChar? o.char = some o := by
  cases o <;> rfl

theorem ofChar?_eq_some_iff {c : Char} {o : Operator} : ofChar? c = some o ↔ c = o.char := by
  constructor
  · unfold ofChar?
    intro h
    split at h
    · cases h; assumption
    split at h
    · cases h; assumption
    split at h
    · cases h; assumption
    split at h
    · cases h; assumption
    · cases h
  · rintro rfl
    exact ofChar?_char o

/-- Products and quotients bind tighter than sums and differences. -/
def precedence : Operator → Nat
  | add => 1
  | sub => 1
  | mul => 2
  | div => 2

theorem precedence_eq_one_iff {o : Operator} : o.precedence = 1 ↔ o = add ∨ o = sub := by
  cases o <;> decide

theorem precedence_eq_two_iff {o : Operator} : o.precedence = 2 ↔ o = mul ∨ o = div := by
  cases o <;> decide

theorem precedence_eq (o : Operator) : o.precedence = 1 ∨ o.precedence = 2 := by
  cases o <;> decide

theorem one_le_precedence (o : Operator) : 1 ≤ o.precedence := by
  rcases o.precedence_eq with h | h <;> omega

/-- The quotient of the sizes, with a minus sign if exactly one of the two numbers is negative. -/
def quotient (l r : Int) : Int :=
  if l < 0 ↔ r < 0 then (l.natAbs / r.natAbs : Nat) else -(l.natAbs / r.natAbs : Nat)

/-- The value of an operator. A quotient needs a divisor. -/
def apply : Operator → Int → Int → Except CalcError Int
  | add, l, r => .ok (l + r)
  | sub, l, r => .ok (l - r)
  | mul, l, r => .ok (l * r)
  | div, l, r => if r = 0 then .error .divisionByZero else .ok (quotient l r)

/-- The fraction of a quotient is dropped, so it truncates toward zero. -/
theorem quotient_eq_tdiv (l r : Int) : quotient l r = l.tdiv r := by
  have hpos (m : Nat) : ¬ Int.ofNat m < 0 := Int.not_lt.mpr (Int.natCast_nonneg m)
  -- Truncation is defined by the signs of the two numbers, and so the cases are these.
  cases l with
  | ofNat m =>
    cases r with
    | ofNat n =>
      rw [quotient, if_pos (iff_of_false (hpos m) (hpos n))]
      rfl
    | negSucc n =>
      rw [quotient, if_neg fun h => hpos m (h.mpr (Int.negSucc_lt_zero n))]
      rfl
  | negSucc m =>
    have hneg := Int.negSucc_lt_zero m
    cases r with
    | ofNat n =>
      rw [quotient, if_neg fun h => hpos n (h.mp hneg)]
      rfl
    | negSucc n =>
      rw [quotient, if_pos (iff_of_true hneg (Int.negSucc_lt_zero n))]
      rfl

theorem apply_div {l r : Int} (h : r ≠ 0) : div.apply l r = .ok (l.tdiv r) := by
  rw [apply, if_neg h, quotient_eq_tdiv]

/-- Only a quotient with divisor zero has no value. -/
theorem apply_eq_error_iff {o : Operator} {l r : Int} {e : CalcError} :
    o.apply l r = .error e ↔ o = div ∧ r = 0 ∧ e = .divisionByZero := by
  cases o <;> simp [apply]
  split <;> simp_all [eq_comm]

end Operator

/-- The characters that cut a line into pieces. -/
inductive Symbol
  | op (o : Operator)
  | leftParen
  | rightParen
  deriving DecidableEq

namespace Symbol

/-- The character that spells a symbol. -/
def char : Symbol → Char
  | op o => o.char
  | leftParen => '('
  | rightParen => ')'

/-- The symbol that a character spells. -/
def ofChar? (c : Char) : Option Symbol :=
  if c = '(' then some leftParen
  else if c = ')' then some rightParen
  else (Operator.ofChar? c).map op

@[simp] theorem ofChar?_char (s : Symbol) : ofChar? s.char = some s := by
  rcases s with o | _ | _
  · cases o <;> rfl
  · rfl
  · rfl

theorem ofChar?_eq_some_iff {c : Char} {s : Symbol} : ofChar? c = some s ↔ c = s.char := by
  constructor
  · unfold ofChar?
    intro h
    split at h
    · cases h; assumption
    split at h
    · cases h; assumption
    · obtain ⟨o, ho, rfl⟩ := Option.map_eq_some_iff.mp h
      exact Operator.ofChar?_eq_some_iff.mp ho
  · rintro rfl
    exact ofChar?_char s

end Symbol

end DeskCalc
