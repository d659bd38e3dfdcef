import DeskCalc.Numeral
import DeskCalc.Piece
import DeskCalc.Text.Digit

/-!
# Words

A word is a piece of a line without symbols. Literals and names are words, and they hold no blanks
at all: their characters are digits, letters and the point, which are neither symbols nor blanks.

## Main definitions

* `Piece.IsWord` — the texts that are one piece without symbols
* `Piece.isPlain` — the characters that are neither symbols nor blanks
* `Numeral.SpellsInteger`, `Numeral.SpellsLiteral` — the texts that spell an integer and those that
  spell a literal with this value

## Main results

* `ofLine_word` — a word with blanks around it is one piece
* `unsigned?_eq_some_iff`, `integer?_eq_some_iff`, `literal?_eq_some_iff_spellsLiteral` — how
  unsigned literals, integers and literals are spelled
* `isWord_of_unsigned?`, `isWord_of_isIdentifier` — literals and names are words
* `space_not_mem_of_isLiteral` — a literal holds no space
-/

namespace DeskCalc

namespace Text

/-- A character between two bounds is not in a table without an entry there. -/
theorem inRanges_eq_false {table : List (Nat × Nat)} {first last : Nat} {c : Char}
    (h : ∀ r ∈ table, r.2 < first ∨ last < r.1) (hfirst : first ≤ c.toNat)
    (hlast : c.toNat ≤ last) : inRanges table c = false := by
  refine Bool.eq_false_iff.mpr fun hc => ?_
  obtain ⟨r, hr, hr₁, hr₂⟩ := inRanges_iff.mp hc
  rcases h r hr with hlow | hhigh <;> omega

theorem toNat_of_isDigit {c : Char} (h : c.isDigit = true) : 0x30 ≤ c.toNat ∧ c.toNat ≤ 0x39 := by
  simp only [Char.isDigit, Bool.and_eq_true, decide_eq_true_eq] at h
  exact h

theorem toNat_of_isAlpha {c : Char} (h : c.isAlpha = true) : 0x41 ≤ c.toNat ∧ c.toNat ≤ 0x7a := by
  have hcases : (c.isUpper || c.isLower) = true := h
  rcases Bool.or_eq_true_iff.mp hcases with hupper | hlower
  · have hbounds : 0x41 ≤ c.toNat ∧ c.toNat ≤ 0x5a := of_decide_eq_true hupper
    omega
  · obtain ⟨hlow, hhigh⟩ := Bool.and_eq_true_iff.mp hlower
    have hlow' : 0x61 ≤ c.toNat := of_decide_eq_true hlow
    have hhigh' : c.toNat ≤ 0x7a := of_decide_eq_true hhigh
    omega

/-- The characters from the point to the small z are not blank. -/
theorem isBlank_eq_false {c : Char} (h : 0x2e ≤ c.toNat) (h' : c.toNat ≤ 0x7a) :
    isBlank c = false :=
  @inRanges_eq_false blankRanges 0x2e 0x7a c (by decide) h h'

theorem isDigit_eq_false_of_isAlpha {c : Char} (h : c.isAlpha = true) : isDigit c = false :=
  inRanges_eq_false (by decide +kernel) (toNat_of_isAlpha h).1 (toNat_of_isAlpha h).2

end Text

/-! ### Characters that are no symbols -/

namespace Symbol

theorem ofChar?_eq_none {c : Char} (h : ∀ s : Symbol, c ≠ s.char) : ofChar? c = none := by
  cases hc : ofChar? c with
  | none => rfl
  | some s => exact absurd (ofChar?_eq_some_iff.mp hc) (h s)

theorem ofChar?_eq_none_of_class {p : Char → Bool} {c : Char} (hp : p c = true)
    (h : ∀ s : Symbol, p s.char = false) : ofChar? c = none := by
  refine ofChar?_eq_none fun s hs => ?_
  rw [hs, h s] at hp
  cases hp

/-- What holds of the six characters holds of every symbol. -/
theorem forall_char {p : Char → Prop}
    (h : p '+' ∧ p '-' ∧ p '*' ∧ p '/' ∧ p '(' ∧ p ')') (s : Symbol) : p s.char := by
  obtain ⟨hadd, hsub, hmul, hdiv, hleft, hright⟩ := h
  rcases s with (_ | _ | _ | _) | _ | _ <;> assumption

theorem isDigit_char (s : Symbol) : s.char.isDigit = false :=
  forall_char (p := fun c => c.isDigit = false) (by decide) s

theorem isAlpha_char (s : Symbol) : s.char.isAlpha = false :=
  forall_char (p := fun c => c.isAlpha = false) (by decide) s

theorem isBlank_char (s : Symbol) : Text.isBlank s.char = false :=
  forall_char (p := fun c => Text.isBlank c = false) (by decide) s

end Symbol

namespace Piece

/-- A text that is one piece of a line: it holds no symbol and has no blank at its ends. -/
structure IsWord (w : List Char) : Prop where
  ne_nil : w ≠ []
  not_symbol : ∀ c ∈ w, Symbol.ofChar? c = none
  trimmed : Text.Trimmed w

/-- A character that is neither a symbol nor blank. -/
def isPlain (c : Char) : Bool := (Symbol.ofChar? c).isNone && !Text.isBlank c

theorem isPlain_iff {c : Char} :
    isPlain c = true ↔ Symbol.ofChar? c = none ∧ Text.isBlank c = false := by
  simp [isPlain]

theorem IsWord.of_isPlain {w : List Char} (hne : w ≠ []) (h : ∀ c ∈ w, isPlain c = true) :
    IsWord w :=
  ⟨hne, fun c hc => (isPlain_iff.mp (h c hc)).1,
    fun c hc => (isPlain_iff.mp (h c (List.mem_of_mem_head? hc))).2,
    fun c hc => (isPlain_iff.mp (h c (List.mem_of_getLast? hc))).2⟩

theorem isPlain_of_isDigit {c : Char} (h : c.isDigit = true) : isPlain c = true := by
  have hbounds := Text.toNat_of_isDigit h
  exact isPlain_iff.mpr ⟨Symbol.ofChar?_eq_none_of_class h Symbol.isDigit_char,
    Text.isBlank_eq_false (by omega) (by omega)⟩

theorem isPlain_of_isAlpha {c : Char} (h : c.isAlpha = true) : isPlain c = true := by
  have hbounds := Text.toNat_of_isAlpha h
  exact isPlain_iff.mpr ⟨Symbol.ofChar?_eq_none_of_class h Symbol.isAlpha_char,
    Text.isBlank_eq_false (by omega) (by omega)⟩

theorem isWord_of_isIdentifier {w : List Char} (h : isIdentifier w = true) : IsWord w := by
  obtain ⟨hne, hletters⟩ := isIdentifier_iff.mp h
  exact .of_isPlain hne fun c hc => isPlain_of_isAlpha (hletters c hc)

/-! ### Cutting a line of a single word -/

theorem cut_of_not_symbol {s : List Char} (hne : s ≠ [])
    (h : ∀ c ∈ s, Symbol.ofChar? c = none) : cut s = [word s] := by
  induction s with
  | nil => exact absurd rfl hne
  | cons c s ih =>
    have hc := h c List.mem_cons_self
    rw [cut_cons]
    cases s with
    | nil => simp [prepend, hc]
    | cons d s =>
      rw [ih (by simp) fun x hx => h x (List.mem_cons_of_mem c hx)]
      simp [prepend, hc]

theorem ofLine_of_not_symbol {s : List Char} (h : ∀ c ∈ s, Symbol.ofChar? c = none) :
    ofLine s = if Text.trim s = [] then [] else [word (Text.trim s)] := by
  by_cases hne : s = []
  · subst hne
    rfl
  · rw [ofLine, cut_of_not_symbol hne h]
    by_cases htrim : Text.trim s = [] <;> simp [trimmed?, htrim]

theorem ofChar?_eq_none_of_isBlank {c : Char} (h : Text.isBlank c = true) :
    Symbol.ofChar? c = none :=
  Symbol.ofChar?_eq_none_of_class h Symbol.isBlank_char

theorem ofLine_blanks {b : List Char} (hb : ∀ c ∈ b, Text.isBlank c = true) : ofLine b = [] := by
  rw [ofLine_of_not_symbol fun c hc => ofChar?_eq_none_of_isBlank (hb c hc),
    if_pos (Text.trim_eq_nil_iff.mpr hb)]

/-- A word with blanks around it is one piece. -/
theorem ofLine_word {b w b' : List Char} (hb : ∀ c ∈ b, Text.isBlank c = true) (hw : IsWord w)
    (hb' : ∀ c ∈ b', Text.isBlank c = true) : ofLine (b ++ w ++ b') = [word w] := by
  have hsymbol : ∀ c ∈ b ++ w ++ b', Symbol.ofChar? c = none := by
    intro c hc
    rcases List.mem_append.mp hc with hc | hc
    · rcases List.mem_append.mp hc with hc | hc
      · exact ofChar?_eq_none_of_isBlank (hb c hc)
      · exact hw.not_symbol c hc
    · exact ofChar?_eq_none_of_isBlank (hb' c hc)
  have htrim : Text.trim (b ++ w ++ b') = w := by
    rw [Text.trim_append_blanks hb', Text.trim_blanks_append hb, hw.trimmed.trim_eq]
  rw [ofLine_of_not_symbol hsymbol, htrim, if_neg hw.ne_nil]

end Piece

/-! ### Literals -/

namespace Numeral

/-- An unsigned literal is made of digits, or of digits, a point and digits. -/
theorem unsigned?_eq_some_iff {s : List Char} {n : Nat} :
    unsigned? s = some n ↔ natural? s = some n ∨
      ∃ whole fraction, s = whole ++ '.' :: fraction ∧ isDigits fraction = true ∧
        natural? whole = some n := by
  constructor
  · intro h
    -- The parts between the points, with the points between them, are the text.
    have hs : ['.'].intercalate (s.splitOn '.') = s := List.intercalate_splitOn '.'
    unfold unsigned? at h
    split at h
    · next whole hsplit =>
      rw [hsplit] at hs
      have hwhole : whole = s := by simpa using hs
      exact Or.inl (hwhole ▸ h)
    · next whole fraction hsplit =>
      rw [hsplit] at hs
      have hs' : whole ++ '.' :: fraction = s := by simpa using hs
      split at h
      · next hfraction => exact Or.inr ⟨whole, fraction, hs'.symm, hfraction, h⟩
      · cases h
    · cases h
  · rintro (h | ⟨whole, fraction, rfl, hfraction, h⟩)
    · exact unsigned?_of_natural? h
    · have hwhole := isDigits_of_natural? h
      rw [unsigned?, List.splitOn_append_cons_self_of_not_mem (point_not_mem_of_isDigits hwhole),
        List.splitOn_eq_singleton (point_not_mem_of_isDigits hfraction)]
      simp [hfraction, h]

theorem isUnsignedLiteral_iff {s : List Char} :
    isUnsignedLiteral s = true ↔ isDigits s = true ∨
      ∃ whole fraction, s = whole ++ '.' :: fraction ∧ isDigits whole = true ∧
        isDigits fraction = true := by
  rw [isUnsignedLiteral, Option.isSome_iff_exists]
  simp only [unsigned?_eq_some_iff, natural?_eq_some_iff]
  constructor
  · rintro ⟨-, ⟨hs, -⟩ | ⟨whole, fraction, rfl, hfraction, hwhole, -⟩⟩
    · exact Or.inl hs
    · exact Or.inr ⟨whole, fraction, rfl, hwhole, hfraction⟩
  · rintro (hs | ⟨whole, fraction, rfl, hwhole, hfraction⟩)
    · exact ⟨_, Or.inl ⟨hs, rfl⟩⟩
    · exact ⟨_, Or.inr ⟨whole, fraction, rfl, hfraction, hwhole, rfl⟩⟩

theorem ne_nil_of_unsigned? {s : List Char} {n : Nat} (h : unsigned? s = some n) : s ≠ [] := by
  rcases unsigned?_eq_some_iff.mp h with h | ⟨whole, fraction, rfl, -, -⟩
  · exact (isDigits_iff.mp (isDigits_of_natural? h)).1
  · simp

theorem isPlain_of_unsigned? {s : List Char} {n : Nat} (h : unsigned? s = some n) {c : Char}
    (hc : c ∈ s) : Piece.isPlain c = true := by
  have hdigits : ∀ {t}, isDigits t = true → c ∈ t → Piece.isPlain c = true := fun ht hc =>
    Piece.isPlain_of_isDigit ((isDigits_iff.mp ht).2 c hc)
  rcases unsigned?_eq_some_iff.mp h with h | ⟨whole, fraction, rfl, hfraction, h⟩
  · exact hdigits (isDigits_of_natural? h) hc
  · rcases List.mem_append.mp hc with hc | hc
    · exact hdigits (isDigits_of_natural? h) hc
    · rcases List.mem_cons.mp hc with rfl | hc
      · decide
      · exact hdigits hfraction hc

theorem isWord_of_unsigned? {s : List Char} {n : Nat} (h : unsigned? s = some n) :
    Piece.IsWord s :=
  .of_isPlain (ne_nil_of_unsigned? h) fun _ hc => isPlain_of_unsigned? h hc

/-- A literal is an unsigned literal, perhaps with a minus sign in front. -/
theorem literal?_eq_some_iff {s : List Char} {n : Int} :
    literal? s = some n ↔ (∃ m : Nat, unsigned? s = some m ∧ n = m) ∨
      ∃ (t : List Char) (m : Nat), s = '-' :: t ∧ unsigned? t = some m ∧ n = -(m : Int) :=
  withSign_eq_some_iff fun hm hs => by
    cases isPlain_of_unsigned? hm (List.mem_of_mem_head? hs)

/-- The text is an optional minus sign and digits, which spell the integer `n`. -/
def SpellsInteger (s : List Char) (n : Int) : Prop :=
  ∃ digits, isDigits digits = true ∧
    (s = digits ∧ n = Nat.ofDigitChars 10 digits 0 ∨
      s = '-' :: digits ∧ n = -(Nat.ofDigitChars 10 digits 0 : Int))

/-- An integer is read off the texts that spell it, and off no other. -/
theorem integer?_eq_some_iff {s : List Char} {n : Int} :
    integer? s = some n ↔ SpellsInteger s n := by
  rw [integer?, withSign_eq_some_iff fun h => head?_ne_of_isDigits (isDigits_of_natural? h)]
  simp only [natural?_eq_some_iff]
  constructor
  · rintro (⟨m, ⟨hdigits, rfl⟩, rfl⟩ | ⟨digits, m, rfl, ⟨hdigits, rfl⟩, rfl⟩)
    · exact ⟨s, hdigits, Or.inl ⟨rfl, rfl⟩⟩
    · exact ⟨digits, hdigits, Or.inr ⟨rfl, rfl⟩⟩
  · rintro ⟨digits, hdigits, ⟨rfl, rfl⟩ | ⟨rfl, rfl⟩⟩
    · exact Or.inl ⟨_, ⟨hdigits, rfl⟩, rfl⟩
    · exact Or.inr ⟨_, _, rfl, ⟨hdigits, rfl⟩, rfl⟩

/-- The text spells an integer, perhaps with a point and digits behind it, which do not count. -/
def SpellsLiteral (s : List Char) (n : Int) : Prop :=
  SpellsInteger s n ∨
    ∃ whole fraction, s = whole ++ '.' :: fraction ∧ isDigits fraction = true ∧
      SpellsInteger whole n

/-- A literal is read off the texts that spell it, and off no other. -/
theorem literal?_eq_some_iff_spellsLiteral {s : List Char} {n : Int} :
    literal? s = some n ↔ SpellsLiteral s n := by
  constructor
  · intro h
    rcases literal?_eq_some_iff.mp h with ⟨m, hm, rfl⟩ | ⟨t, m, rfl, hm, rfl⟩
    · rcases unsigned?_eq_some_iff.mp hm with hs | ⟨whole, fraction, rfl, hfraction, hwhole⟩
      · obtain ⟨hdigits, rfl⟩ := natural?_eq_some_iff.mp hs
        exact Or.inl ⟨s, hdigits, Or.inl ⟨rfl, rfl⟩⟩
      · obtain ⟨hdigits, rfl⟩ := natural?_eq_some_iff.mp hwhole
        exact Or.inr ⟨whole, fraction, rfl, hfraction, whole, hdigits, Or.inl ⟨rfl, rfl⟩⟩
    · rcases unsigned?_eq_some_iff.mp hm with ht | ⟨whole, fraction, rfl, hfraction, hwhole⟩
      · obtain ⟨hdigits, rfl⟩ := natural?_eq_some_iff.mp ht
        exact Or.inl ⟨t, hdigits, Or.inr ⟨rfl, rfl⟩⟩
      · obtain ⟨hdigits, rfl⟩ := natural?_eq_some_iff.mp hwhole
        exact Or.inr ⟨'-' :: whole, fraction, rfl, hfraction, whole, hdigits, Or.inr ⟨rfl, rfl⟩⟩
  · rintro (h | ⟨whole, fraction, rfl, hfraction, digits, hdigits, hsign⟩)
    · exact literal?_of_integer? (integer?_eq_some_iff.mpr h)
    · have hunsigned :
          unsigned? (digits ++ '.' :: fraction) = some (Nat.ofDigitChars 10 digits 0) :=
        unsigned?_eq_some_iff.mpr (Or.inr ⟨digits, fraction, rfl, hfraction,
          natural?_eq_some_iff.mpr ⟨hdigits, rfl⟩⟩)
      rcases hsign with ⟨rfl, rfl⟩ | ⟨rfl, rfl⟩
      · exact literal?_eq_some_iff.mpr (Or.inl ⟨_, hunsigned, rfl⟩)
      · exact literal?_eq_some_iff.mpr (Or.inr ⟨_, _, rfl, hunsigned, rfl⟩)

/-- A literal holds no space, and it is not empty. -/
theorem space_not_mem_of_isLiteral {s : List Char} (h : isLiteral s = true) :
    s ≠ [] ∧ ' ' ∉ s := by
  obtain ⟨n, hn⟩ := Option.isSome_iff_exists.mp h
  have hspace : ∀ {t : List Char} {m : Nat}, unsigned? t = some m → ' ' ∉ t := fun ht hc => by
    cases isPlain_of_unsigned? ht hc
  rcases literal?_eq_some_iff.mp hn with ⟨m, hm, -⟩ | ⟨t, m, rfl, hm, -⟩
  · exact ⟨ne_nil_of_unsigned? hm, hspace hm⟩
  · refine ⟨by simp, fun hc => ?_⟩
    rcases List.mem_cons.mp hc with heq | hc
    · cases heq
    · exact hspace hm hc

end Numeral

end DeskCalc
