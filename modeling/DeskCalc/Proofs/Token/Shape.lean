import DeskCalc.Proofs.Piece.Word
import DeskCalc.Proofs.Token.Nesting

/-!
# The shape of tokens

Every word of a line is trimmed, holds no symbol and is not empty, so the same holds of the operands
that its words become. Only a word that takes a sign is negated. Hence the text of a token tells
what the token is: one character for a symbol, and none of these for an operand.

## Main definitions

* `Token.WellFormed` — the tokens that a line can have

## Main results

* `Piece.isWord_of_mem_ofLine` — the words of a line
* `Token.takesSign_iff` — the words that a sign is folded into
* `Token.word_mem_of_operand_mem_foldSigns` — the words of the operands
* `Token.wellFormed_of_mem_scan` — the tokens of a line are well-formed
* `Operand.text_ne_symbol` — no operand is spelled like a symbol
-/

namespace DeskCalc

namespace Piece

/-- No symbol is cut off as part of a word. -/
theorem not_symbol_of_mem_cut {line w : List Char} (h : word w ∈ cut line) :
    ∀ c ∈ w, Symbol.ofChar? c = none := by
  induction line generalizing w with
  | nil => cases h
  | cons c line ih =>
    rw [cut_cons] at h
    unfold prepend at h
    split at h
    · next s hs =>
      rcases List.mem_cons.mp h with h | h
      · cases h
      · exact ih h
    · next hnone =>
      split at h
      · next v rest hcut =>
        rcases List.mem_cons.mp h with h | h
        · cases h
          rw [List.forall_mem_cons]
          exact ⟨hnone, ih (hcut ▸ List.mem_cons_self)⟩
        · exact ih (hcut ▸ List.mem_cons_of_mem _ h)
      · rcases List.mem_cons.mp h with h | h
        · cases h
          exact List.forall_mem_singleton.mpr hnone
        · exact ih h

/-- The words among the pieces of a line hold no symbol and have no blank at their ends. -/
theorem isWord_of_mem_ofLine {line w : List Char} (h : word w ∈ ofLine line) : IsWord w := by
  obtain ⟨p, hp, htrimmed⟩ := List.mem_filterMap.mp h
  cases p with
  | symbol s => cases htrimmed
  | word v =>
    obtain ⟨hne, heq⟩ := Option.ite_none_left_eq_some.mp htrimmed
    obtain rfl : Text.trim v = w := by simpa using heq
    exact ⟨hne, fun c hc => not_symbol_of_mem_cut hp c (Text.mem_of_mem_trim hc),
      Text.trimmed_trim v⟩

end Piece

namespace Token

/-- An operand is a word, and one that is negated takes a sign. -/
def WellFormed : Token → Prop
  | symbol _ => True
  | operand a => Piece.IsWord a.word ∧ (a.negated = true → takesSign a.word = true)

/-- A sign is folded into digits, into digits with a point and digits behind them, and into names,
but into nothing else. -/
theorem takesSign_iff {w : List Char} :
    takesSign w = true ↔ Numeral.isDigits w = true ∨
      (∃ whole fraction, w = whole ++ '.' :: fraction ∧ Numeral.isDigits whole = true ∧
        Numeral.isDigits fraction = true) ∨ isIdentifier w = true := by
  rw [takesSign, Bool.or_eq_true, Numeral.isUnsignedLiteral_iff, or_assoc]

/-- A sign is folded into a word that takes one. -/
theorem exists_word_of_signed?_eq_some {p q : Piece} {t : Token} (h : signed? p q = some t) :
    ∃ w negated, q = .word w ∧ takesSign w = true ∧ t = operand ⟨negated, w⟩ := by
  unfold signed? at h
  split at h
  · obtain ⟨htakes, ht⟩ := Option.ite_none_right_eq_some.mp h
    exact ⟨_, false, rfl, htakes, (Option.some.inj ht).symm⟩
  · obtain ⟨htakes, ht⟩ := Option.ite_none_right_eq_some.mp h
    exact ⟨_, true, rfl, htakes, (Option.some.inj ht).symm⟩
  · cases h

/-- An operand has one of the words that signs are folded into, and its word takes a sign if it is
negated. -/
theorem word_mem_of_operand_mem_foldSigns {due : Bool} {pieces : List Piece} {a : Operand}
    (h : operand a ∈ foldSigns due pieces) :
    .word a.word ∈ pieces ∧ (a.negated = true → takesSign a.word = true) := by
  -- A piece of its own is an operand without a sign.
  have hpiece : ∀ {p : Piece}, operand a = ofPiece p →
      p = .word a.word ∧ (a.negated = true → takesSign a.word = true) := by
    intro p hp
    cases p with
    | symbol s => cases hp
    | word w =>
      cases hp
      exact ⟨rfl, fun hnegated => by cases hnegated⟩
  fun_induction foldSigns due pieces with
  | case1 due => cases h
  | case2 due p =>
    obtain ⟨rfl, htakes⟩ := hpiece (List.mem_singleton.mp h)
    exact ⟨List.mem_cons_self, htakes⟩
  | case3 due p q rest t ht ih =>
    rcases List.mem_cons.mp h with rfl | hmore
    · obtain ⟨-, hsigned⟩ := Option.ite_none_right_eq_some.mp ht
      obtain ⟨w, negated, rfl, htakes, ha⟩ := exists_word_of_signed?_eq_some hsigned
      cases ha
      exact ⟨List.mem_cons_of_mem p List.mem_cons_self, fun _ => htakes⟩
    · exact (ih hmore).imp_left fun hword =>
        List.mem_cons_of_mem p (List.mem_cons_of_mem q hword)
  | case4 due p q rest hnone ih =>
    rcases List.mem_cons.mp h with hp | hmore
    · obtain ⟨rfl, htakes⟩ := hpiece hp
      exact ⟨List.mem_cons_self, htakes⟩
    · exact (ih hmore).imp_left (List.mem_cons_of_mem p)

theorem wellFormed_of_mem_foldSigns {due : Bool} {pieces : List Piece} {t : Token}
    (hwords : ∀ w, .word w ∈ pieces → Piece.IsWord w) (h : t ∈ foldSigns due pieces) :
    t.WellFormed := by
  cases t with
  | symbol s => trivial
  | operand a =>
    obtain ⟨hword, htakes⟩ := word_mem_of_operand_mem_foldSigns h
    exact ⟨hwords _ hword, htakes⟩

theorem wellFormed_of_mem_scan {due : Bool} {line : List Char} {t : Token}
    (h : t ∈ scan due line) : t.WellFormed :=
  wellFormed_of_mem_foldSigns (fun _ hw => Piece.isWord_of_mem_ofLine hw) h

end Token

namespace Operand

variable {a : Operand}

theorem text_ne_nil (h : (Token.operand a).WellFormed) : a.text ≠ [] := by
  rw [text]
  split
  · exact List.cons_ne_nil _ _
  · exact h.1.ne_nil

/-- No word begins with the minus sign, so in front of an operand it tells that the operand is
negated. -/
theorem head?_text_eq_minus_iff (h : (Token.operand a).WellFormed) :
    a.text.head? = some '-' ↔ a.negated = true := by
  constructor
  · intro hhead
    refine Classical.byContradiction fun hnegated => ?_
    rw [text, if_neg hnegated] at hhead
    have hminus := h.1.not_symbol '-' (List.mem_of_mem_head? hhead)
    cases hminus
  · intro hnegated
    rw [text, if_pos hnegated]
    rfl

theorem text_ne_symbol (h : (Token.operand a).WellFormed) (s : Symbol) : a.text ≠ [s.char] := by
  intro htext
  rw [text] at htext
  split at htext
  · exact h.1.ne_nil (List.cons.inj htext).2
  · have hnone := h.1.not_symbol s.char (by rw [htext]; exact List.mem_singleton_self _)
    rw [Symbol.ofChar?_char] at hnone
    cases hnone

end Operand

end DeskCalc
