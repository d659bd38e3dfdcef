import DeskCalc.Signs

/-!
# Doubled characters

A character is doubled in a text made of two if it is doubled in one of them, or if it ends the one
and begins the other. So a character that is neither `*` nor `/` keeps what is before it from what
is behind it.

## Main definitions

* `Signs.Undoubled` — a text without doubled `*` and `/`

## Main results

* `undoubled_iff` — the check for doubled characters decides this
* `undoubled_append`, `undoubled_append_cons` — texts made of two
-/

namespace DeskCalc.Signs

/-- Neither `*` nor `/` stands twice in a row in the text. -/
def Undoubled (s : List Char) : Prop := ¬ ['*', '*'] <:+: s ∧ ¬ ['/', '/'] <:+: s

variable {c : Char} {s t : List Char}

theorem undoubled_iff : Undoubled s ↔ hasDoubled '*' s = false ∧ hasDoubled '/' s = false := by
  rw [Undoubled, ← hasDoubled_iff, ← hasDoubled_iff, Bool.not_eq_true, Bool.not_eq_true]

instance Undoubled.instDecidable (s : List Char) : Decidable (Undoubled s) :=
  decidable_of_iff _ undoubled_iff.symm

theorem hasDoubled_cons (c d : Char) (s : List Char) :
    hasDoubled c (d :: s) = ((d == c && s.head?.any (· == c)) || hasDoubled c s) := by
  cases s with
  | nil => simp [hasDoubled]
  | cons e s => simp [hasDoubled]

theorem hasDoubled_cons_of_ne {d : Char} (h : d ≠ c) (s : List Char) :
    hasDoubled c (d :: s) = hasDoubled c s := by
  rw [hasDoubled_cons, beq_eq_false_iff_ne.mpr h, Bool.false_and, Bool.false_or]

/-- A character is doubled in one of two texts or where it ends the one and begins the other. -/
theorem hasDoubled_append (h : ¬ (s.getLast? = some c ∧ t.head? = some c)) :
    hasDoubled c (s ++ t) = (hasDoubled c s || hasDoubled c t) := by
  induction s with
  | nil => rfl
  | cons a s ih =>
    rw [List.cons_append, hasDoubled_cons, hasDoubled_cons]
    cases s with
    | nil =>
      -- Here the two texts meet, so the first is not doubled with what follows it.
      have hmeet : (a == c && t.head?.any (· == c)) = false := by
        rw [← Bool.not_eq_true, Bool.and_eq_true, beq_iff_eq, Option.any_eq_true]
        rintro ⟨rfl, d, hd, hdc⟩
        exact h ⟨rfl, hd.trans (congrArg some (beq_iff_eq.mp hdc))⟩
      simp [hmeet, hasDoubled]
    | cons b s =>
      rw [ih (by rwa [List.getLast?_cons_cons] at h), Bool.or_assoc]
      rfl

/-- Two texts without a doubled `*` or `/` make one where neither of them meets itself. -/
theorem undoubled_append (hstar : ¬ (s.getLast? = some '*' ∧ t.head? = some '*'))
    (hslash : ¬ (s.getLast? = some '/' ∧ t.head? = some '/')) :
    Undoubled (s ++ t) ↔ Undoubled s ∧ Undoubled t := by
  rw [undoubled_iff, undoubled_iff, undoubled_iff, hasDoubled_append hstar,
    hasDoubled_append hslash, Bool.or_eq_false_iff, Bool.or_eq_false_iff]
  exact and_and_and_comm

/-- A character that is neither `*` nor `/` separates the doubled characters before it from those
behind it. -/
theorem undoubled_append_cons {x : Char} (hstar : x ≠ '*') (hslash : x ≠ '/') (s t : List Char) :
    Undoubled (s ++ x :: t) ↔ Undoubled s ∧ Undoubled t := by
  have hcons : Undoubled (x :: t) ↔ Undoubled t := by
    rw [undoubled_iff, undoubled_iff, hasDoubled_cons_of_ne hstar, hasDoubled_cons_of_ne hslash]
  rw [← hcons]
  exact undoubled_append (fun h => hstar (Option.some.inj h.2)) fun h =>
    hslash (Option.some.inj h.2)

end DeskCalc.Signs
