/-!
# Numerals and names

Whole numbers are written in decimal with a minus sign in front of the negative ones. Two forms are
read: an integer, and a literal that may also have a fraction. A literal stands for the integer
that its integer digits spell; the fraction is dropped.

## Main definitions

* `Numeral.render` — the decimal text of an integer
* `Numeral.integer?` — the value of an optional minus sign and digits
* `Numeral.literal?` — the same with an optional fraction
* `Numeral.isUnsignedLiteral` — a literal without a minus sign
* `isIdentifier` — names: one or more ASCII letters

## Main results

* `integer?_render` — what is rendered reads back
* `literal?_of_integer?` — an integer is a literal with the same value
-/

namespace DeskCalc

/-- A name is made of ASCII letters, at least one. -/
def isIdentifier (s : List Char) : Bool := !s.isEmpty && s.all Char.isAlpha

theorem isIdentifier_iff {s : List Char} :
    isIdentifier s = true ↔ s ≠ [] ∧ ∀ c ∈ s, c.isAlpha = true := by
  simp [isIdentifier]

theorem not_mem_of_isIdentifier {s : List Char} (h : isIdentifier s = true) {c : Char}
    (hc : c.isAlpha = false) : c ∉ s := by
  intro hmem
  rw [(isIdentifier_iff.mp h).2 c hmem] at hc
  cases hc

namespace Numeral

/-- One or more ASCII digits. -/
def isDigits (s : List Char) : Bool := !s.isEmpty && s.all Char.isDigit

theorem isDigits_iff {s : List Char} :
    isDigits s = true ↔ s ≠ [] ∧ ∀ c ∈ s, c.isDigit = true := by
  simp [isDigits]

/-- The number that one or more digits spell. -/
def natural? (s : List Char) : Option Nat :=
  if isDigits s then some (Nat.ofDigitChars 10 s 0) else none

/-- The number that the integer digits of an unsigned literal spell: digits alone, or digits, a
point and digits. -/
def unsigned? (s : List Char) : Option Nat :=
  match s.splitOn '.' with
  | [whole] => natural? whole
  | [whole, fraction] => if isDigits fraction then natural? whole else none
  | _ => none

/-- A reading of unsigned numbers extended by an optional minus sign. -/
def withSign (read : List Char → Option Nat) : List Char → Option Int
  | '-' :: s => (read s).map fun n : Nat => -(n : Int)
  | s => (read s).map fun n : Nat => (n : Int)

/-- The value of an integer: an optional minus sign and digits. -/
def integer? (s : List Char) : Option Int := withSign natural? s

/-- The value of a literal: an optional minus sign, digits, and an optional fraction that does not
count. -/
def literal? (s : List Char) : Option Int := withSign unsigned? s

/-- An integer in the form that an assignment accepts. -/
def isInteger (s : List Char) : Bool := (integer? s).isSome

/-- A literal in the form that the evaluation accepts. -/
def isLiteral (s : List Char) : Bool := (literal? s).isSome

/-- Digits, or digits, a point and digits. -/
def isUnsignedLiteral (s : List Char) : Bool := (unsigned? s).isSome

/-- The decimal text of an integer, with a minus sign in front of the negative ones. -/
def render (n : Int) : List Char :=
  if n < 0 then '-' :: Nat.toDigits 10 n.natAbs else Nat.toDigits 10 n.natAbs

/-! ### Reading back -/

theorem natural?_eq_some_iff {s : List Char} {m : Nat} :
    natural? s = some m ↔ isDigits s = true ∧ m = Nat.ofDigitChars 10 s 0 := by
  rw [natural?, Option.ite_none_right_eq_some, Option.some_inj, eq_comm (a := m)]

theorem isDigits_of_natural? {s : List Char} {n : Nat} (h : natural? s = some n) :
    isDigits s = true :=
  (natural?_eq_some_iff.mp h).1

theorem isDigits_toDigits (n : Nat) : isDigits (Nat.toDigits 10 n) = true :=
  isDigits_iff.mpr ⟨Nat.toDigits_ne_nil,
    fun _ hc => Nat.isDigit_of_mem_toDigits (b := 10) (by decide) (by decide) hc⟩

@[simp] theorem natural?_toDigits (n : Nat) : natural? (Nat.toDigits 10 n) = some n := by
  simp [natural?, isDigits_toDigits]

theorem withSign_of_head_ne {read : List Char → Option Nat} {s : List Char}
    (h : s.head? ≠ some '-') : withSign read s = (read s).map fun n : Nat => (n : Int) := by
  unfold withSign
  split
  · simp at h
  · rfl

/-- Where no text that is read begins with a minus sign, the sign is taken in one way only. -/
theorem withSign_eq_some_iff {read : List Char → Option Nat}
    (hread : ∀ {s n}, read s = some n → s.head? ≠ some '-') {s : List Char} {n : Int} :
    withSign read s = some n ↔ (∃ m : Nat, read s = some m ∧ n = m) ∨
      ∃ (t : List Char) (m : Nat), s = '-' :: t ∧ read t = some m ∧ n = -(m : Int) := by
  constructor
  · unfold withSign
    split
    · intro h
      obtain ⟨m, hm, rfl⟩ := Option.map_eq_some_iff.mp h
      exact Or.inr ⟨_, m, rfl, hm, rfl⟩
    · intro h
      obtain ⟨m, hm, rfl⟩ := Option.map_eq_some_iff.mp h
      exact Or.inl ⟨m, hm, rfl⟩
  · rintro (⟨m, hm, rfl⟩ | ⟨t, m, rfl, hm, rfl⟩)
    · rw [withSign_of_head_ne (hread hm), hm]
      rfl
    · rw [withSign, hm]
      rfl

theorem head?_ne_of_isDigits {s : List Char} (h : isDigits s = true) : s.head? ≠ some '-' := by
  intro hs
  have := (isDigits_iff.mp h).2 '-' (List.mem_of_mem_head? hs)
  simp at this

/-- What is rendered reads back as the same integer. -/
@[simp] theorem integer?_render (n : Int) : integer? (render n) = some n := by
  unfold render
  split
  · next h =>
    simp only [integer?, withSign, natural?_toDigits, Option.map_some, Option.some.injEq]
    omega
  · next h =>
    rw [integer?, withSign_of_head_ne (head?_ne_of_isDigits (isDigits_toDigits _)),
      natural?_toDigits]
    simp only [Option.map_some, Option.some.injEq]
    omega

theorem point_not_mem_of_isDigits {s : List Char} (h : isDigits s = true) : '.' ∉ s := by
  intro hs
  have := (isDigits_iff.mp h).2 '.' hs
  simp at this

theorem unsigned?_of_natural? {s : List Char} {n : Nat} (h : natural? s = some n) :
    unsigned? s = some n := by
  rw [unsigned?, List.splitOn_eq_singleton (point_not_mem_of_isDigits (isDigits_of_natural? h))]
  exact h

/-- An integer is a literal, with the same value. -/
theorem literal?_of_integer? {s : List Char} {n : Int} (h : integer? s = some n) :
    literal? s = some n := by
  unfold integer? literal? withSign at *
  split at h <;>
  · obtain ⟨m, hm, rfl⟩ := Option.map_eq_some_iff.mp h
    simp [unsigned?_of_natural? hm]

end Numeral

end DeskCalc
