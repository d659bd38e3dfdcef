import DeskCalc.Proofs.Piece.Stretch

/-!
# Replacing the words of a line

The words of a line may be replaced by other texts, each one where it stands, with the blanks around
it kept. What takes the place of a word may depend on all that stands in front of it. What a single
replacement leaves as it is, all of them together do, since the line can be gone through from its
end. Where every word becomes a word, the pieces of the line are replaced one by one.

## Main definitions

* `Piece.Opens`, `Piece.Closes` — a word behind a text, or in front of it, is a piece of its own
* `Piece.Replacement` — what takes the place of a word
* `Piece.replaceWords` — a line with all its words replaced
* `Piece.mapWord` — a piece with its word replaced

## Main results

* `ofLine_append_word` — a word between two texts is a piece of its own
* `apply_replaceWords` — what every single replacement leaves as it is
* `ofLine_replaceWords` — the pieces of a line whose words become words
-/

namespace DeskCalc.Piece

/-! ### Words that are pieces of their own -/

/-- Behind the text a word is not joined to another one: but for blanks, the text is empty or ends
with a symbol. -/
def Opens (before : List Char) : Prop :=
  ∃ front blanks, before = front ++ blanks ∧ (∀ c ∈ blanks, Text.isBlank c = true) ∧
    front.getLast?.all isCut = true

/-- In front of the text a word is not joined to another one: but for blanks, the text is empty or
begins with a symbol. -/
def Closes (behind : List Char) : Prop :=
  ∃ blanks back, behind = blanks ++ back ∧ (∀ c ∈ blanks, Text.isBlank c = true) ∧
    back.head?.all isCut = true

variable {before behind w : List Char}

theorem opens_append_blanks (h : before.getLast?.all isCut = true) {b : List Char}
    (hb : ∀ c ∈ b, Text.isBlank c = true) : Opens (before ++ b) :=
  ⟨before, b, rfl, hb, h⟩

theorem closes_blanks_append (h : behind.head?.all isCut = true) {b : List Char}
    (hb : ∀ c ∈ b, Text.isBlank c = true) : Closes (b ++ behind) :=
  ⟨b, behind, rfl, hb, h⟩

/-- A word between two texts is a piece of its own, if it is joined to no other one. -/
theorem ofLine_append_word (hbefore : Opens before) (hw : IsWord w) (hbehind : Closes behind) :
    ofLine (before ++ (w ++ behind)) = ofLine before ++ word w :: ofLine behind := by
  obtain ⟨front, b, rfl, hb, hfront⟩ := hbefore
  obtain ⟨b', back, rfl, hb', hback⟩ := hbehind
  have hline : front ++ b ++ (w ++ (b' ++ back)) = front ++ ((b ++ w ++ b') ++ back) := by
    simp
  rw [hline, ofLine_append (Or.inl hfront), ofLine_append (Or.inr hback), ofLine_word hb hw hb',
    ofLine_append_blanks hb, ofLine_blanks_append hb', List.singleton_append]

/-! ### Replacements -/

/-- What takes the place of a word, given all that stands in front of the word. -/
abbrev Replacement := List Char → List Char → List Char

/-- A stretch of a line with its word replaced. The blanks around the word stay, and a stretch
without a word stays as it is. -/
def replaceInStretch (f : Replacement) (before stretch : List Char) : List Char :=
  if Text.trim stretch = [] then stretch
  else
    Text.leadingBlanks stretch ++ (f (before ++ Text.leadingBlanks stretch) (Text.trim stretch) ++
      Text.trailingBlanks stretch)

/-- The rest of a line, behind the text `before`, with its words replaced. -/
def replaceFrom (f : Replacement) : List Char → List Piece → List Char
  | _, [] => []
  | before, .symbol s :: rest => s.char :: replaceFrom f (before ++ [s.char]) rest
  | before, .word w :: rest => replaceInStretch f before w ++ replaceFrom f (before ++ w) rest

/-- A line with its words replaced. -/
def replaceWords (f : Replacement) (line : List Char) : List Char := replaceFrom f [] (cut line)

variable {f : Replacement}

theorem replaceFrom_stretch (hw : ∀ c ∈ w, Symbol.ofChar? c = none) (before : List Char) :
    replaceFrom f before (cut w) = replaceInStretch f before w := by
  by_cases hne : w = []
  · subst hne
    rfl
  · rw [cut_of_not_symbol hne hw]
    exact List.append_nil _

/-- The rest of a line that is a stretch, a symbol and a line. -/
theorem replaceFrom_symbol (hw : ∀ c ∈ w, Symbol.ofChar? c = none) (before : List Char)
    (s : Symbol) (rest : List Char) :
    replaceFrom f before (cut (w ++ s.char :: rest)) =
      replaceInStretch f before w ++
        s.char :: replaceFrom f (before ++ w ++ [s.char]) (cut rest) := by
  rw [cut_append_symbol]
  by_cases hne : w = []
  · subst hne
    rw [List.append_nil]
    rfl
  · rw [cut_of_not_symbol hne hw]
    rfl

/-! ### One replacement and all of them -/

theorem isWord_trim (hw : ∀ c ∈ w, Symbol.ofChar? c = none) (hne : Text.trim w ≠ []) :
    IsWord (Text.trim w) :=
  ⟨hne, fun c hc => hw c (Text.mem_of_mem_trim hc), Text.trimmed_trim w⟩

section Invariance

variable {α : Type} {P : List Char → α}

/-- What the replacement of a word leaves as it is, the replacement in a stretch does. -/
theorem apply_replaceInStretch
    (h : ∀ before w behind, Opens before → IsWord w → Closes behind →
      P (before ++ (f before w ++ behind)) = P (before ++ (w ++ behind)))
    (hbefore : before.getLast?.all isCut = true) (hw : ∀ c ∈ w, Symbol.ofChar? c = none)
    (behind : List Char) (hbehind : behind.head?.all isCut = true) :
    P (before ++ (replaceInStretch f before w ++ behind)) = P (before ++ (w ++ behind)) := by
  rw [replaceInStretch]
  split
  · rfl
  · next hne =>
    have hopens : Opens (before ++ Text.leadingBlanks w) :=
      opens_append_blanks hbefore fun _ => Text.isBlank_of_mem_leadingBlanks
    have hcloses : Closes (Text.trailingBlanks w ++ behind) :=
      closes_blanks_append hbehind fun _ => Text.isBlank_of_mem_trailingBlanks
    have hword := h _ _ _ hopens (isWord_trim hw hne) hcloses
    have hstretch : w ++ behind =
        Text.leadingBlanks w ++ (Text.trim w ++ (Text.trailingBlanks w ++ behind)) := by
      rw [← List.append_assoc (Text.trim w), ← List.append_assoc, Text.leadingBlanks_append_trim]
    rw [hstretch]
    simpa only [List.append_assoc] using hword

/-- What the replacement of a word leaves as it is, the replacement of all words does. -/
theorem apply_replaceFrom
    (h : ∀ before w behind, Opens before → IsWord w → Closes behind →
      P (before ++ (f before w ++ behind)) = P (before ++ (w ++ behind)))
    (hbefore : before.getLast?.all isCut = true) (line : List Char) :
    P (before ++ replaceFrom f before (cut line)) = P (before ++ line) := by
  -- From the end of the line to its front, so each word still has its own text in front of it.
  induction line using line_induction generalizing before with
  | stretch w hw =>
    have hstretch := apply_replaceInStretch h hbefore hw [] rfl
    rwa [List.append_nil, List.append_nil, ← replaceFrom_stretch hw] at hstretch
  | symbol w s rest hw ih =>
    have hcut : isCut s.char = true := isCut_iff.mpr ⟨s, rfl⟩
    have hlast : (before ++ w ++ [s.char]).getLast?.all isCut = true := by simp [hcut]
    have hrest := ih hlast
    have hstretch := apply_replaceInStretch h hbefore hw
      (s.char :: replaceFrom f (before ++ w ++ [s.char]) (cut rest)) (by simp [hcut])
    rw [replaceFrom_symbol hw, hstretch]
    simpa using hrest

/-- The same for a whole line. -/
theorem apply_replaceWords
    (h : ∀ before w behind, Opens before → IsWord w → Closes behind →
      P (before ++ (f before w ++ behind)) = P (before ++ (w ++ behind)))
    (line : List Char) : P (replaceWords f line) = P line :=
  @apply_replaceFrom [] f α P h rfl line

end Invariance

/-! ### Words that become words -/

/-- A piece with its word replaced. -/
def mapWord (f : List Char → List Char) : Piece → Piece
  | symbol s => symbol s
  | word w => word (f w)

variable {g : List Char → List Char}

/-- Where the word alone decides what takes its place, what stands in front of the line does not
matter. -/
theorem replaceFrom_const (g : List Char → List Char) (before before' : List Char)
    (pieces : List Piece) :
    replaceFrom (fun _ => g) before pieces = replaceFrom (fun _ => g) before' pieces := by
  induction pieces generalizing before before' with
  | nil => rfl
  | cons p pieces ih => cases p <;> exact congrArg _ (ih _ _)

theorem replaceWords_stretch (hw : ∀ c ∈ w, Symbol.ofChar? c = none) :
    replaceWords (fun _ => g) w = replaceInStretch (fun _ => g) [] w :=
  replaceFrom_stretch hw []

/-- A symbol separates the words that are replaced before it from those behind it. -/
theorem replaceWords_symbol (hw : ∀ c ∈ w, Symbol.ofChar? c = none) (s : Symbol)
    (rest : List Char) :
    replaceWords (fun _ => g) (w ++ s.char :: rest) =
      replaceInStretch (fun _ => g) [] w ++ s.char :: replaceWords (fun _ => g) rest := by
  rw [replaceWords, replaceFrom_symbol hw, replaceFrom_const g _ []]
  rfl

theorem not_symbol_replaceInStretch (hg : ∀ v, IsWord v → IsWord (g v))
    (hw : ∀ c ∈ w, Symbol.ofChar? c = none) :
    ∀ c ∈ replaceInStretch (fun _ => g) [] w, Symbol.ofChar? c = none := by
  intro c hc
  rw [replaceInStretch] at hc
  split at hc
  · exact hw c hc
  · next hne =>
    rcases List.mem_append.mp hc with hc | hc
    · exact ofChar?_eq_none_of_isBlank (Text.isBlank_of_mem_leadingBlanks hc)
    rcases List.mem_append.mp hc with hc | hc
    · exact (hg _ (isWord_trim hw hne)).not_symbol c hc
    · exact ofChar?_eq_none_of_isBlank (Text.isBlank_of_mem_trailingBlanks hc)

theorem ofLine_replaceInStretch (hg : ∀ v, IsWord v → IsWord (g v))
    (hw : ∀ c ∈ w, Symbol.ofChar? c = none) :
    ofLine (replaceInStretch (fun _ => g) [] w) = (ofLine w).map (mapWord g) := by
  rw [ofLine_of_not_symbol hw, replaceInStretch]
  split
  · next htrim => rw [ofLine_of_not_symbol hw, if_pos htrim, List.map_nil]
  · next htrim =>
    rw [← List.append_assoc, ofLine_word (fun _ => Text.isBlank_of_mem_leadingBlanks)
      (hg _ (isWord_trim hw htrim)) fun _ => Text.isBlank_of_mem_trailingBlanks]
    rfl

/-- The pieces of a line whose words become words. -/
theorem ofLine_replaceWords (hg : ∀ v, IsWord v → IsWord (g v)) (line : List Char) :
    ofLine (replaceWords (fun _ => g) line) = (ofLine line).map (mapWord g) := by
  induction line using line_induction with
  | stretch w hw => rw [replaceWords_stretch hw, ofLine_replaceInStretch hg hw]
  | symbol w s rest hw ih =>
    rw [replaceWords_symbol hw, ofLine_append_symbol, ofLine_append_symbol,
      ofLine_replaceInStretch hg hw, ih, List.map_append, List.map_cons]
    rfl

end DeskCalc.Piece
