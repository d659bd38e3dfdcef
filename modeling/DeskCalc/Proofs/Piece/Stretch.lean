import DeskCalc.Proofs.Piece.Word
import Mathlib.Data.List.Chain
import Mathlib.Data.List.TakeWhile

/-!
# The stretches of a line

A line is a stretch without symbols, or such a stretch, a symbol, and a line. So what holds of the
pieces of a line is proved for the two forms, the second with the line behind the symbol given. A
stretch comes to one word, or to no piece if it is all blank; hence no two words are neighbours, and
blanks at the end of a stretch do not matter.

## Main definitions

* `Piece.leadingWord` — the word that a line begins with
* `Piece.Apart` — one of two neighbouring pieces is a symbol

## Main results

* `line_induction` — a line is built from its end, one symbol at a time
* `head?_ofLine_eq_word_iff` — the first piece of a line is a word exactly if it begins with one
* `isChain_apart_ofLine` — no two words are neighbours
* `ofLine_append_blanks_append` — blanks beside a symbol or at an end of a line do not matter
-/

namespace DeskCalc.Piece

/-- A line is a stretch without symbols, or such a stretch, a symbol, and a line. -/
@[elab_as_elim]
theorem line_induction {motive : List Char → Prop}
    (stretch : ∀ w, (∀ c ∈ w, Symbol.ofChar? c = none) → motive w)
    (symbol : ∀ w (s : Symbol) rest, (∀ c ∈ w, Symbol.ofChar? c = none) → motive rest →
      motive (w ++ s.char :: rest)) (line : List Char) : motive line := by
  -- The stretch that has been read so far is put in front of the rest of the line.
  suffices h : ∀ w : List Char, (∀ c ∈ w, Symbol.ofChar? c = none) → motive (w ++ line) from
    h [] (by simp)
  induction line with
  | nil =>
    intro w hw
    rw [List.append_nil]
    exact stretch w hw
  | cons c line ih =>
    intro w hw
    cases hc : Symbol.ofChar? c with
    | some s =>
      rw [Symbol.ofChar?_eq_some_iff.mp hc]
      exact symbol w s line hw (ih [] (by simp))
    | none =>
      have hmore : ∀ d ∈ w ++ [c], Symbol.ofChar? d = none := by
        intro d hd
        rcases List.mem_append.mp hd with hd | hd
        · exact hw d hd
        · rwa [List.mem_singleton.mp hd]
      simpa using ih (w ++ [c]) hmore

/-! ### The word at the front -/

/-- The word that a line begins with: its first stretch, trimmed. It is empty if the line begins
with a symbol or is blank up to the first one. -/
def leadingWord (line : List Char) : List Char :=
  Text.trim (line.takeWhile fun c => (Symbol.ofChar? c).isNone)

theorem leadingWord_of_not_symbol {w : List Char} (hw : ∀ c ∈ w, Symbol.ofChar? c = none) :
    leadingWord w = Text.trim w := by
  rw [leadingWord, List.takeWhile_eq_self_iff.mpr fun c hc => by rw [hw c hc]; rfl]

theorem leadingWord_append_symbol {w : List Char} (hw : ∀ c ∈ w, Symbol.ofChar? c = none)
    (s : Symbol) (rest : List Char) : leadingWord (w ++ s.char :: rest) = Text.trim w := by
  rw [leadingWord, List.takeWhile_append_of_pos fun c hc => by rw [hw c hc]; rfl]
  simp

/-- A stretch in front of pieces that begin with no word brings the first word, if any. -/
theorem head?_stretch_append {w v : List Char} (hw : ∀ c ∈ w, Symbol.ofChar? c = none)
    {pieces : List Piece} (hpieces : pieces.head? ≠ some (word v)) :
    (ofLine w ++ pieces).head? = some (word v) ↔ v ≠ [] ∧ Text.trim w = v := by
  rw [ofLine_of_not_symbol hw]
  split
  · next htrim =>
    rw [List.nil_append, htrim]
    exact ⟨fun h => absurd h hpieces, fun ⟨hne, heq⟩ => absurd heq.symm hne⟩
  · next htrim =>
    rw [List.singleton_append, List.head?_cons, Option.some_inj, word.injEq]
    exact ⟨fun h => ⟨h ▸ htrim, h⟩, And.right⟩

/-- The first piece of a line is a word exactly if the line begins with one. -/
theorem head?_ofLine_eq_word_iff {line v : List Char} :
    (ofLine line).head? = some (word v) ↔ v ≠ [] ∧ leadingWord line = v := by
  induction line using line_induction with
  | stretch w hw =>
    have hhead := @head?_stretch_append w v hw [] (by simp)
    rwa [List.append_nil, ← leadingWord_of_not_symbol hw] at hhead
  | symbol w s rest hw _ =>
    rw [ofLine_append_symbol, leadingWord_append_symbol hw]
    exact head?_stretch_append hw (by simp)

/-! ### Neighbours -/

/-- The piece is a symbol. -/
def isSymbol : Piece → Bool
  | symbol _ => true
  | word _ => false

/-- One of the two pieces is a symbol. -/
def Apart (p q : Piece) : Prop := p.isSymbol = true ∨ q.isSymbol = true

/-- No two words are neighbours among the pieces of a line. -/
theorem isChain_apart_ofLine (line : List Char) : (ofLine line).IsChain Apart := by
  induction line using line_induction with
  | stretch w hw =>
    rw [ofLine_of_not_symbol hw]
    split
    · exact List.isChain_nil
    · exact List.isChain_singleton _
  | symbol w s rest hw ih =>
    have hsymbol : (symbol s :: ofLine rest).IsChain Apart :=
      List.isChain_cons.mpr ⟨fun _ _ => Or.inl rfl, ih⟩
    rw [ofLine_append_symbol, ofLine_of_not_symbol hw]
    split
    · exact hsymbol
    · exact List.isChain_cons_cons.mpr ⟨Or.inr rfl, hsymbol⟩

/-! ### Blanks -/

/-- The character cuts a line. -/
def isCut (c : Char) : Bool := (Symbol.ofChar? c).isSome

theorem isCut_iff {c : Char} : isCut c = true ↔ ∃ s : Symbol, c = s.char := by
  rw [isCut, Option.isSome_iff_exists]
  exact exists_congr fun s => Symbol.ofChar?_eq_some_iff

theorem ofLine_cons_symbol (s : Symbol) (line : List Char) :
    ofLine (s.char :: line) = symbol s :: ofLine line :=
  ofLine_append_symbol [] line s

/-- A symbol at the end of the one line, or at the front of the other, keeps their pieces apart. -/
theorem ofLine_append {before behind : List Char}
    (h : before.getLast?.all isCut = true ∨ behind.head?.all isCut = true) :
    ofLine (before ++ behind) = ofLine before ++ ofLine behind := by
  rcases h with h | h
  · rcases before.eq_nil_or_concat with rfl | ⟨before, c, rfl⟩
    · rfl
    · have hc : isCut c = true := by simpa using h
      obtain ⟨s, rfl⟩ := isCut_iff.mp hc
      rw [List.concat_eq_append, List.append_assoc, List.singleton_append, ofLine_append_symbol,
        ofLine_append_symbol, List.append_assoc]
      rfl
  · cases behind with
    | nil => rw [List.append_nil]; exact (List.append_nil _).symm
    | cons c behind =>
      have hc : isCut c = true := by simpa using h
      obtain ⟨s, rfl⟩ := isCut_iff.mp hc
      rw [ofLine_append_symbol, ofLine_cons_symbol]

variable {blanks : List Char}

theorem ofLine_append_blanks (hb : ∀ c ∈ blanks, Text.isBlank c = true) (line : List Char) :
    ofLine (line ++ blanks) = ofLine line := by
  induction line using line_induction with
  | stretch w hw =>
    have hsymbol : ∀ c ∈ w ++ blanks, Symbol.ofChar? c = none := fun c hc =>
      (List.mem_append.mp hc).elim (hw c) fun hc => ofChar?_eq_none_of_isBlank (hb c hc)
    rw [ofLine_of_not_symbol hsymbol, ofLine_of_not_symbol hw, Text.trim_append_blanks hb]
  | symbol w s rest _ ih =>
    rw [List.append_assoc, List.cons_append, ofLine_append_symbol, ih, ← ofLine_append_symbol]

theorem ofLine_blanks_append (hb : ∀ c ∈ blanks, Text.isBlank c = true) (line : List Char) :
    ofLine (blanks ++ line) = ofLine line := by
  have hstretch : ∀ w : List Char, (∀ c ∈ w, Symbol.ofChar? c = none) →
      ofLine (blanks ++ w) = ofLine w := by
    intro w hw
    have hsymbol : ∀ c ∈ blanks ++ w, Symbol.ofChar? c = none := fun c hc =>
      (List.mem_append.mp hc).elim (fun hc => ofChar?_eq_none_of_isBlank (hb c hc)) (hw c)
    rw [ofLine_of_not_symbol hsymbol, ofLine_of_not_symbol hw, Text.trim_blanks_append hb]
  induction line using line_induction with
  | stretch w hw => exact hstretch w hw
  | symbol w s rest hw _ =>
    rw [← List.append_assoc, ofLine_append_symbol, hstretch w hw, ← ofLine_append_symbol]

/-- Blanks beside a symbol, or at an end of the line, do not matter. -/
theorem ofLine_append_blanks_append (hb : ∀ c ∈ blanks, Text.isBlank c = true)
    {before behind : List Char}
    (h : before.getLast?.all isCut = true ∨ behind.head?.all isCut = true) :
    ofLine (before ++ (blanks ++ behind)) = ofLine (before ++ behind) := by
  rw [ofLine_append h]
  rcases h with h | h
  · rw [ofLine_append (Or.inl h), ofLine_blanks_append hb]
  · rw [← List.append_assoc, ofLine_append (Or.inr h), ofLine_append_blanks hb]

end DeskCalc.Piece
