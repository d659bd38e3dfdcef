import DeskCalc.Expr.Spelling
import DeskCalc.Proofs.Token.Shape

/-!
# Lines that spell an expression

A line that consists of the texts of an expression with blanks around them falls apart as the
expression does: an operator stands between the lines of its two operands, and parentheses stand
around the line of what they enclose. Such a line begins with no `*` or `/` and ends with no
operator at all, so neither `*` nor `/` is ever doubled in it.

## Main definitions

* `Expr.Spells` — the expression is spelled by the line

## Main results

* `spells_of_spaced` — the texts of an expression with blanks around them spell it
* `Spells.undoubled` — no `*` or `/` is doubled in a line that spells an expression
-/

namespace DeskCalc

/-! ### Texts in sequence -/

namespace Spaced

variable {lexemes more : List (List Char)} {line blanks : List Char}

/-- A line of two sequences of texts is a line of the one and a line of the other. -/
theorem exists_append (h : Spaced (lexemes ++ more) line) :
    ∃ s t, line = s ++ t ∧ Spaced lexemes s ∧ Spaced more t := by
  induction lexemes generalizing line with
  | nil => exact ⟨[], line, rfl, .nil (by simp), h⟩
  | cons lexeme lexemes ih =>
    cases h with
    | @cons b _ line _ hb h =>
      obtain ⟨s, t, rfl, hs, ht⟩ := ih h
      exact ⟨b ++ lexeme ++ s, t, (List.append_assoc _ _ _).symm, .cons hb hs, ht⟩

theorem append_blanks (h : Spaced lexemes line) (hb : ∀ c ∈ blanks, Text.isBlank c = true) :
    Spaced lexemes (line ++ blanks) := by
  induction h with
  | nil hb' => exact .nil fun c hc => (List.mem_append.mp hc).elim (hb' c) (hb c)
  | cons hb' _ ih =>
    rw [List.append_assoc]
    exact .cons hb' ih

/-- A line of one text is this text with blanks around it. -/
theorem exists_of_cons {lexeme : List Char} (h : Spaced (lexeme :: lexemes) line) :
    ∃ b s, line = b ++ (lexeme ++ s) ∧ (∀ c ∈ b, Text.isBlank c = true) ∧ Spaced lexemes s := by
  cases h with
  | @cons b _ line _ hb h => exact ⟨b, line, List.append_assoc _ _ _, hb, h⟩

theorem isBlank_of_nil (h : Spaced [] line) : ∀ c ∈ line, Text.isBlank c = true := by
  cases h with
  | nil hb => exact hb

end Spaced

/-! ### The parts of a line -/

namespace Atom

theorem unsigned?_text {whole : List Char} {fraction : Option (List Char)}
    (h : (literal whole fraction).WellFormed) :
    Numeral.unsigned? (literal whole fraction).text = some (Nat.ofDigitChars 10 whole 0) := by
  cases fraction with
  | none => exact Numeral.unsigned?_of_natural? (if_pos h)
  | some fraction =>
    obtain ⟨hwhole, hfraction⟩ := h
    exact Numeral.unsigned?_eq_some_iff.mpr
      (Or.inr ⟨whole, fraction, rfl, hfraction, if_pos hwhole⟩)

theorem isWord_text {a : Atom} (h : a.WellFormed) : Piece.IsWord a.text := by
  cases a with
  | literal whole fraction => exact Numeral.isWord_of_unsigned? (unsigned?_text h)
  | name letters => exact Piece.isWord_of_isIdentifier h

theorem takesSign_text {a : Atom} (h : a.WellFormed) : Token.takesSign a.text = true := by
  rw [Token.takesSign_iff]
  rcases a with ⟨whole, _ | fraction⟩ | letters
  · exact Or.inl h
  · exact Or.inr (Or.inl ⟨whole, fraction, rfl, h.1, h.2⟩)
  · exact Or.inr (Or.inr h)

end Atom

namespace Expr

/-- The line spells the expression: blanks stand where they may, and the atoms are spelled as they
should be. -/
inductive Spells : Expr Factor → List Char → Prop
  | operand {f : Factor} {before between behind : List Char} : f.atom.WellFormed →
      (∀ c ∈ before, Text.isBlank c = true) → (∀ c ∈ between, Text.isBlank c = true) →
      (∀ c ∈ behind, Text.isBlank c = true) →
      Spells (.operand f) (before ++ (f.signs.map Sign.char ++ (between ++ f.atom.text ++ behind)))
  | paren {e : Expr Factor} {before line behind : List Char} :
      (∀ c ∈ before, Text.isBlank c = true) → Spells e line →
      (∀ c ∈ behind, Text.isBlank c = true) →
      Spells (.paren e) (before ++ '(' :: (line ++ ')' :: behind))
  | binary {left right : Expr Factor} {s t : List Char} (o : Operator) :
      Spells left s → Spells right t → Spells (.binary o left right) (s ++ o.char :: t)

/-- The texts of an expression with blanks around them spell the expression. -/
theorem spells_of_spaced {e : Expr Factor} {line : List Char}
    (hatoms : ∀ f ∈ e.operands, f.atom.WellFormed) (h : Spaced e.lexemes line) :
    e.Spells line := by
  induction e generalizing line with
  | operand f =>
    have hf : f.atom.WellFormed := hatoms f (List.mem_singleton_self f)
    by_cases hsigns : f.signs = []
    · have hlexemes : (operand f).lexemes = [f.atom.text] := by
        simp [lexemes, inOrder, Factor.lexemes, hsigns]
      rw [hlexemes] at h
      obtain ⟨b, s, rfl, hb, hs⟩ := h.exists_of_cons
      -- Without signs, all the blanks in front of the atom stand at the front.
      have hspells : (operand f).Spells
          (b ++ (f.signs.map Sign.char ++ ([] ++ f.atom.text ++ s))) :=
        .operand hf hb (by simp) hs.isBlank_of_nil
      simpa [hsigns] using hspells
    · have hlexemes : (operand f).lexemes = [f.signs.map Sign.char, f.atom.text] := by
        simp [lexemes, inOrder, Factor.lexemes, hsigns]
      rw [hlexemes] at h
      obtain ⟨b, s, rfl, hb, hs⟩ := h.exists_of_cons
      obtain ⟨b', s', rfl, hb', hs'⟩ := hs.exists_of_cons
      rw [← List.append_assoc b']
      exact .operand hf hb hb' hs'.isBlank_of_nil
  | paren e ih =>
    have hlexemes : (paren e).lexemes = ['('] :: (e.lexemes ++ [[')']]) := rfl
    rw [hlexemes] at h
    obtain ⟨b, rest, rfl, hb, hrest⟩ := h.exists_of_cons
    obtain ⟨s, t, rfl, hs, ht⟩ := hrest.exists_append
    obtain ⟨b', behind, rfl, hb', hbehind⟩ := ht.exists_of_cons
    -- The blanks before the closing parenthesis belong to the line that it encloses.
    have hline := ih hatoms (hs.append_blanks hb')
    rw [List.singleton_append, List.singleton_append, ← List.append_assoc s]
    exact .paren hb hline hbehind.isBlank_of_nil
  | binary o left right ihl ihr =>
    have hlexemes : (binary o left right).lexemes = left.lexemes ++ [o.char] :: right.lexemes := rfl
    rw [hlexemes] at h
    obtain ⟨s, rest, rfl, hs, hrest⟩ := h.exists_append
    obtain ⟨b, t, rfl, hb, ht⟩ := hrest.exists_of_cons
    have hl := ihl (fun f hf => hatoms f (List.mem_append_left _ hf)) (hs.append_blanks hb)
    have hr := ihr (fun f hf => hatoms f (List.mem_append_right _ hf)) ht
    rw [List.singleton_append, ← List.append_assoc s]
    exact .binary o hl hr

/-- The atoms of an expression that a line spells are spelled as they should be. -/
theorem Spells.wellFormed {e : Expr Factor} {line : List Char} (h : e.Spells line) :
    ∀ f ∈ e.operands, f.atom.WellFormed := by
  induction h with
  | operand hf _ _ _ =>
    intro g hg
    rw [List.mem_singleton.mp hg]
    exact hf
  | paren _ _ _ ih => exact ih
  | binary o _ _ ihl ihr => exact fun f hf => (List.mem_append.mp hf).elim (ihl f) (ihr f)

/-! ### The ends of a line -/

theorem ne_operator_of_ofChar? {c : Char} (h : Symbol.ofChar? c = none) (o : Operator) :
    c ≠ o.char := by
  rintro rfl
  have hsymbol : Symbol.ofChar? o.char = some (.op o) := Symbol.ofChar?_char (.op o)
  rw [hsymbol] at h
  cases h

theorem ne_operator_of_isBlank {c : Char} (h : Text.isBlank c = true) (o : Operator) :
    c ≠ o.char :=
  ne_operator_of_ofChar? (Piece.ofChar?_eq_none_of_isBlank h) o

theorem exists_concat_of_ne_nil {s : List Char} (h : s ≠ []) : ∃ t c, s = t ++ [c] ∧ c ∈ s :=
  ⟨s.dropLast, s.getLast h, (List.dropLast_concat_getLast h).symm, List.getLast_mem h⟩

/-- The line of an expression ends with no operator. -/
theorem Spells.exists_concat {e : Expr Factor} {line : List Char} (h : e.Spells line) :
    ∃ s c, line = s ++ [c] ∧ ∀ o : Operator, c ≠ o.char := by
  induction h with
  | @operand f before between behind hf _ _ hbehind =>
    have hword := Atom.isWord_text hf
    -- The last character is that of the atom, or a blank behind it.
    have hne : f.atom.text ++ behind ≠ [] := by simp [hword.ne_nil]
    obtain ⟨t, c, ht, hc⟩ := exists_concat_of_ne_nil hne
    refine ⟨before ++ (f.signs.map Sign.char ++ (between ++ t)), c, by simp [ht], ?_⟩
    rcases List.mem_append.mp hc with hc | hc
    · exact ne_operator_of_ofChar? (hword.not_symbol c hc)
    · exact ne_operator_of_isBlank (hbehind c hc)
  | @paren e before line behind _ _ hbehind _ =>
    obtain ⟨t, c, ht, hc⟩ := @exists_concat_of_ne_nil (')' :: behind) (by simp)
    refine ⟨before ++ '(' :: (line ++ t), c, by simp [ht], ?_⟩
    rcases List.mem_cons.mp hc with rfl | hc
    · intro o
      cases o <;> decide
    · exact ne_operator_of_isBlank (hbehind c hc)
  | @binary left right s t o _ _ _ ihr =>
    obtain ⟨t', c, rfl, hc⟩ := ihr
    exact ⟨s ++ o.char :: t', c, by simp, hc⟩

/-- The character is neither `*` nor `/`. -/
def NoFactorOp (c : Char) : Prop := c ≠ '*' ∧ c ≠ '/'

theorem noFactorOp_of_ne_operator {c : Char} (h : ∀ o : Operator, c ≠ o.char) : NoFactorOp c :=
  ⟨h .mul, h .div⟩

/-- The line of a single operand holds neither `*` nor `/`. -/
theorem noFactorOp_of_mem {f : Factor} {before between behind : List Char}
    (hf : f.atom.WellFormed) (hbefore : ∀ c ∈ before, Text.isBlank c = true)
    (hbetween : ∀ c ∈ between, Text.isBlank c = true)
    (hbehind : ∀ c ∈ behind, Text.isBlank c = true) {c : Char}
    (hc : c ∈ before ++ (f.signs.map Sign.char ++ (between ++ f.atom.text ++ behind))) :
    NoFactorOp c := by
  rw [List.mem_append, List.mem_append, List.mem_append, List.mem_append] at hc
  rcases hc with hc | hc | (hc | hc) | hc
  · exact noFactorOp_of_ne_operator (ne_operator_of_isBlank (hbefore c hc))
  · obtain ⟨s, -, rfl⟩ := List.mem_map.mp hc
    cases s <;> exact ⟨by decide, by decide⟩
  · exact noFactorOp_of_ne_operator (ne_operator_of_isBlank (hbetween c hc))
  · exact noFactorOp_of_ne_operator (ne_operator_of_ofChar? ((Atom.isWord_text hf).not_symbol c hc))
  · exact noFactorOp_of_ne_operator (ne_operator_of_isBlank (hbehind c hc))

/-- The line of an expression begins with neither `*` nor `/`. -/
theorem Spells.exists_cons {e : Expr Factor} {line : List Char} (h : e.Spells line) :
    ∃ c s, line = c :: s ∧ NoFactorOp c := by
  induction h with
  | @operand f before between behind hf hbefore hbetween hbehind =>
    have hne : before ++ (f.signs.map Sign.char ++ (between ++ f.atom.text ++ behind)) ≠ [] := by
      simp [(Atom.isWord_text hf).ne_nil]
    obtain ⟨c, s, hs⟩ := List.exists_cons_of_ne_nil hne
    refine ⟨c, s, hs, noFactorOp_of_mem hf hbefore hbetween hbehind ?_⟩
    rw [hs]
    exact List.mem_cons_self
  | @paren e before line behind hbefore _ _ _ =>
    cases before with
    | nil => exact ⟨'(', line ++ ')' :: behind, rfl, by decide, by decide⟩
    | cons c before =>
      exact ⟨c, _, rfl, noFactorOp_of_ne_operator
        (ne_operator_of_isBlank (hbefore c List.mem_cons_self))⟩
  | @binary left right s t o _ _ ihl _ =>
    obtain ⟨c, s', rfl, hc⟩ := ihl
    exact ⟨c, s' ++ o.char :: t, rfl, hc⟩

theorem undoubled_of_noFactorOp {s : List Char} (h : ∀ c ∈ s, NoFactorOp c) :
    Signs.Undoubled s :=
  ⟨fun hdouble => (h '*' (hdouble.subset List.mem_cons_self)).1 rfl,
    fun hdouble => (h '/' (hdouble.subset List.mem_cons_self)).2 rfl⟩

/-- Neither `*` nor `/` is doubled in the line of an expression. -/
theorem Spells.undoubled {e : Expr Factor} {line : List Char} (h : e.Spells line) :
    Signs.Undoubled line := by
  induction h with
  | operand hf hbefore hbetween hbehind =>
    exact undoubled_of_noFactorOp fun c hc => noFactorOp_of_mem hf hbefore hbetween hbehind hc
  | @paren e before line behind hbefore _ hbehind ih =>
    have hblanks : ∀ b : List Char, (∀ c ∈ b, Text.isBlank c = true) → Signs.Undoubled b :=
      fun b hb => undoubled_of_noFactorOp fun c hc =>
        noFactorOp_of_ne_operator (ne_operator_of_isBlank (hb c hc))
    rw [Signs.undoubled_append_cons (by decide) (by decide),
      Signs.undoubled_append_cons (by decide) (by decide)]
    exact ⟨hblanks before hbefore, ih, hblanks behind hbehind⟩
  | @binary left right s t o hl hr ihl ihr =>
    -- The operator has a neighbour on either side that keeps it from what is beyond.
    obtain ⟨s', c, rfl, hc⟩ := hl.exists_concat
    obtain ⟨d, t', rfl, hd⟩ := hr.exists_cons
    have hop : Signs.Undoubled [o.char] := by
      rw [Signs.Undoubled, ← Signs.hasDoubled_iff, ← Signs.hasDoubled_iff]
      cases o <;> decide
    have hleft := (Signs.undoubled_append_cons (hc .mul) (hc .div) s' []).mp ihl
    have hright := (Signs.undoubled_append_cons hd.1 hd.2 [] t').mp ihr
    have hbehind := (Signs.undoubled_append_cons hd.1 hd.2 [o.char] t').mpr ⟨hop, hright.2⟩
    rw [List.append_assoc, List.singleton_append]
    exact (Signs.undoubled_append_cons (hc .mul) (hc .div) s' _).mpr ⟨hleft.1, hbehind⟩

end Expr

end DeskCalc
