import DeskCalc.Text.CharRange

/-!
# Blank characters and trimming

Blank characters are the white space of Unicode together with the four information
separators U+001C to U+001F. The zero-width characters U+200B and U+FEFF are not blank.

## Main definitions

* `Text.isBlank` — the blank characters
* `Text.trim` — a text without the blanks at its two ends
* `Text.leadingBlanks`, `Text.trailingBlanks` — the blanks that trimming takes away

## Main results

* `trim_eq_nil_iff` — only an all-blank text trims to nothing
* `trim_append_blanks`, `trim_blanks_append` — blanks added at an end are trimmed away
* `leadingBlanks_append_trim` — trimming takes away nothing else
-/

namespace DeskCalc.Text

/-- The code points of the blank characters. -/
def blankRanges : List (Nat × Nat) :=
  [(0x9, 0xd), (0x1c, 0x20), (0x85, 0x85), (0xa0, 0xa0), (0x1680, 0x1680), (0x2000, 0x200a),
   (0x2028, 0x2029), (0x202f, 0x202f), (0x205f, 0x205f), (0x3000, 0x3000)]

/-- White space and information separators. -/
def isBlank (c : Char) : Bool := inRanges blankRanges c

/-- The text without its leading blanks. -/
def trimStart (s : List Char) : List Char := s.dropWhile isBlank

/-- The text without its trailing blanks. -/
def trimEnd (s : List Char) : List Char := (s.reverse.dropWhile isBlank).reverse

/-- The text without the blanks at its two ends. -/
def trim (s : List Char) : List Char := trimEnd (trimStart s)

/-- The blanks in front of a text. -/
def leadingBlanks (s : List Char) : List Char := s.takeWhile isBlank

/-- The blanks behind a text. Those of an all-blank text all count as leading. -/
def trailingBlanks (s : List Char) : List Char :=
  ((trimStart s).reverse.takeWhile isBlank).reverse

@[simp] theorem trim_nil : trim [] = [] := rfl

/-! ### Blanks at the ends -/

theorem trimStart_blanks_append {b s : List Char} (hb : ∀ c ∈ b, isBlank c = true) :
    trimStart (b ++ s) = trimStart s :=
  List.dropWhile_append_of_pos hb

theorem trimEnd_append_blanks {b s : List Char} (hb : ∀ c ∈ b, isBlank c = true) :
    trimEnd (s ++ b) = trimEnd s := by
  have h : ∀ c ∈ b.reverse, isBlank c = true := fun c hc => hb c (List.mem_reverse.mp hc)
  simp only [trimEnd, List.reverse_append]
  rw [List.dropWhile_append_of_pos h]

theorem trimStart_eq_nil_iff {s : List Char} :
    trimStart s = [] ↔ ∀ c ∈ s, isBlank c = true := by
  induction s with
  | nil => simp [trimStart]
  | cons c s ih =>
    by_cases hc : isBlank c = true
    · rw [trimStart, List.dropWhile_cons_of_pos hc, ← trimStart, ih, List.forall_mem_cons]
      exact ⟨fun h => ⟨hc, h⟩, fun h => h.2⟩
    · simp [trimStart, hc]

theorem trimEnd_eq_nil_iff {s : List Char} :
    trimEnd s = [] ↔ ∀ c ∈ s, isBlank c = true := by
  rw [trimEnd, List.reverse_eq_nil_iff, ← trimStart, trimStart_eq_nil_iff]
  simp

theorem trimStart_cons_of_not_blank {c : Char} {s : List Char} (hc : isBlank c = false) :
    trimStart (c :: s) = c :: s := by
  simp [trimStart, hc]

theorem trimEnd_append_of_not_blank {c : Char} {s : List Char} (hc : isBlank c = false) :
    trimEnd (s ++ [c]) = s ++ [c] := by
  simp [trimEnd, hc]

theorem trimStart_append {s t : List Char} (hs : ¬ ∀ c ∈ s, isBlank c = true) :
    trimStart (s ++ t) = trimStart s ++ t := by
  have h : trimStart s ≠ [] := fun h => hs (trimStart_eq_nil_iff.mp h)
  simp only [trimStart] at h ⊢
  rw [List.dropWhile_append]
  simp [h]

theorem isBlank_of_head?_trimStart {s : List Char} {c : Char}
    (h : (trimStart s).head? = some c) : isBlank c = false := by
  have hnot := List.head?_dropWhile_not isBlank s
  rw [← trimStart, h] at hnot
  simpa using hnot

/-- Only an all-blank text trims to nothing. -/
theorem trim_eq_nil_iff {s : List Char} : trim s = [] ↔ ∀ c ∈ s, isBlank c = true := by
  refine ⟨fun h => ?_, fun h => ?_⟩
  · have hall := trimEnd_eq_nil_iff.mp h
    cases hs : trimStart s with
    | nil => exact trimStart_eq_nil_iff.mp hs
    | cons c r =>
      have hc : isBlank c = true := hall c (hs ▸ List.mem_cons_self)
      have hnot : isBlank c = false := isBlank_of_head?_trimStart (by rw [hs, List.head?_cons])
      rw [hc] at hnot
      cases hnot
  · rw [trim, trimStart_eq_nil_iff.mpr h]
    rfl

theorem trim_blanks_append {b s : List Char} (hb : ∀ c ∈ b, isBlank c = true) :
    trim (b ++ s) = trim s := by
  rw [trim, trimStart_blanks_append hb, ← trim]

theorem trim_append_blanks {b s : List Char} (hb : ∀ c ∈ b, isBlank c = true) :
    trim (s ++ b) = trim s := by
  by_cases hs : ∀ c ∈ s, isBlank c = true
  · have h : ∀ c ∈ s ++ b, isBlank c = true := fun c hc =>
      (List.mem_append.mp hc).elim (hs c) (hb c)
    rw [trim_eq_nil_iff.mpr hs, trim_eq_nil_iff.mpr h]
  · rw [trim, trimStart_append hs, trimEnd_append_blanks hb, ← trim]

theorem trim_append_trailingBlanks (s : List Char) : trim s ++ trailingBlanks s = trimStart s := by
  rw [trim, trimEnd, trailingBlanks, ← List.reverse_append, List.takeWhile_append_dropWhile,
    List.reverse_reverse]

/-- Trimming takes away what is blank at the two ends, and nothing else. -/
theorem leadingBlanks_append_trim (s : List Char) :
    leadingBlanks s ++ (trim s ++ trailingBlanks s) = s := by
  rw [trim_append_trailingBlanks, leadingBlanks, trimStart, List.takeWhile_append_dropWhile]

theorem isBlank_of_mem_takeWhile {s : List Char} {c : Char} (h : c ∈ s.takeWhile isBlank) :
    isBlank c = true :=
  List.all_eq_true.mp List.all_takeWhile c h

theorem isBlank_of_mem_leadingBlanks {s : List Char} {c : Char} (h : c ∈ leadingBlanks s) :
    isBlank c = true :=
  isBlank_of_mem_takeWhile h

theorem isBlank_of_mem_trailingBlanks {s : List Char} {c : Char} (h : c ∈ trailingBlanks s) :
    isBlank c = true :=
  isBlank_of_mem_takeWhile (List.mem_reverse.mp h)

/-- A text is its trimmed form with blanks around it. -/
theorem exists_blanks_trim (s : List Char) :
    ∃ b b', (∀ c ∈ b, isBlank c = true) ∧ (∀ c ∈ b', isBlank c = true) ∧
      s = b ++ (trim s ++ b') :=
  ⟨leadingBlanks s, trailingBlanks s, fun _ => isBlank_of_mem_leadingBlanks,
    fun _ => isBlank_of_mem_trailingBlanks, (leadingBlanks_append_trim s).symm⟩

theorem mem_of_mem_trim {c : Char} {s : List Char} (h : c ∈ trim s) : c ∈ s := by
  have hend : c ∈ trimStart s :=
    List.mem_reverse.mp ((List.dropWhile_sublist _).subset (List.mem_reverse.mp h))
  exact (List.dropWhile_sublist _).subset hend

/-- Trimming takes away blanks only. -/
theorem mem_trim_iff {c : Char} {s : List Char} (hc : isBlank c = false) : c ∈ trim s ↔ c ∈ s := by
  refine ⟨mem_of_mem_trim, fun h => ?_⟩
  obtain ⟨b, b', hb, hb', hs⟩ := exists_blanks_trim s
  have hnot : ∀ {t : List Char}, (∀ d ∈ t, isBlank d = true) → c ∉ t := fun ht hmem => by
    simp [ht c hmem] at hc
  rw [hs, List.mem_append, List.mem_append] at h
  exact (h.resolve_left (hnot hb)).resolve_right (hnot hb')

/-- A trimmed text has no blank at either end. -/
structure Trimmed (s : List Char) : Prop where
  head_not_blank : ∀ c, s.head? = some c → isBlank c = false
  last_not_blank : ∀ c, s.getLast? = some c → isBlank c = false

theorem Trimmed.trim_eq {s : List Char} (h : Trimmed s) : trim s = s := by
  have hstart : trimStart s = s := by
    cases s with
    | nil => rfl
    | cons c r => exact trimStart_cons_of_not_blank (h.head_not_blank c rfl)
  rw [trim, hstart]
  rcases s.eq_nil_or_concat with rfl | ⟨r, c, rfl⟩
  · rfl
  · rw [List.concat_eq_append] at h ⊢
    exact trimEnd_append_of_not_blank (h.last_not_blank c (by simp))

/-- Trimming leaves no blank at either end. -/
theorem trimmed_trim (s : List Char) : Trimmed (trim s) where
  head_not_blank c hc := by
    -- What is trimmed at both ends begins as what is trimmed in front.
    refine isBlank_of_head?_trimStart (s := s) ?_
    rw [← trim_append_trailingBlanks, List.head?_append, hc]
    rfl
  last_not_blank c hc := by
    refine isBlank_of_head?_trimStart (s := (trimStart s).reverse) ?_
    rw [← hc, trim, trimEnd, ← trimStart, List.getLast?_reverse]

end DeskCalc.Text
