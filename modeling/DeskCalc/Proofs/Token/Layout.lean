import DeskCalc.Proofs.Piece.Stretch
import DeskCalc.Proofs.Signs.Settling
import DeskCalc.Proofs.Token.Shape

/-!
# Tokens and the text they come from

The tokens of a line are its text with the signs merged, but for blanks and for the plus signs that
are folded into the operand behind them. Which plus signs these are can be read off the text: an
operand is due where they stand, and a literal or a name follows. Between two operands there is
always a symbol, and an operand with a folded minus sign stands only where an operand is due.

## Main definitions

* `Text.solid` — a text without its blanks
* `Token.dropPlus` — a text without the plus signs that belong to an operand
* `Token.LaidOut` — what the tokens of a line look like

## Main results

* `isChain_mayPrecede_foldSigns` — what may stand behind what among the tokens
* `solidText_ofLine` — nothing else is lost
* `laidOut_of_undoubled` — the tokens of a line
-/

namespace DeskCalc

/-! ### Texts without blanks -/

namespace Text

/-- The characters of a text that are not blank. -/
def solid (s : List Char) : List Char := s.filter fun c => !isBlank c

@[simp] theorem solid_nil : solid [] = [] := rfl

@[simp] theorem solid_append (s t : List Char) : solid (s ++ t) = solid s ++ solid t :=
  List.filter_append s t

theorem solid_cons_of_not_blank {c : Char} (hc : isBlank c = false) (s : List Char) :
    solid (c :: s) = c :: solid s := by
  rw [solid, List.filter_cons_of_pos (by rw [hc]; rfl), ← solid]

theorem solid_eq_nil {s : List Char} (h : ∀ c ∈ s, isBlank c = true) : solid s = [] := by
  refine List.filter_eq_nil_iff.mpr fun c hc => ?_
  rw [h c hc]
  decide

@[simp] theorem solid_trim (s : List Char) : solid (trim s) = solid s := by
  obtain ⟨b, b', hb, hb', hs⟩ := exists_blanks_trim s
  calc solid (trim s) = solid (b ++ (trim s ++ b')) := by
        rw [solid_append, solid_append, solid_eq_nil hb, solid_eq_nil hb', List.nil_append,
          List.append_nil]
    _ = solid s := by rw [← hs]

end Text

namespace Token

open Text (solid)

/-! ### Plus signs that belong to an operand -/

/-- Whether an operand is due behind a character, where `due` says whether one is due in front of
it. Blanks make no difference. -/
def dueBehind (due : Bool) (c : Char) : Bool :=
  if Text.isBlank c then due
  else (Symbol.ofChar? c).any fun s => (symbol s).awaitsOperand

/-- A text without the plus signs that belong to an operand: an operand is due where they stand, and
a literal or a name is right behind them. -/
def dropPlus (due : Bool) : List Char → List Char
  | [] => []
  | c :: s =>
    if c = '+' ∧ due = true ∧ takesSign (Piece.leadingWord s) = true then
      dropPlus (dueBehind due c) s
    else c :: dropPlus (dueBehind due c) s

@[simp] theorem dueBehind_symbol (due : Bool) (s : Symbol) :
    dueBehind due s.char = (symbol s).awaitsOperand := by
  rw [dueBehind, Symbol.isBlank_char, if_neg (by decide), Symbol.ofChar?_char]
  rfl

/-- A stretch without symbols keeps all its characters. No operand is due behind it unless it is
blank. -/
theorem dropPlus_append {w : List Char} (hw : ∀ c ∈ w, Symbol.ofChar? c = none) (due : Bool)
    (s : List Char) :
    dropPlus due (w ++ s) = w ++ dropPlus (due && w.all Text.isBlank) s := by
  induction w generalizing due with
  | nil => simp
  | cons c w ih =>
    obtain ⟨hc, hw⟩ := List.forall_mem_cons.mp hw
    have hplus : c ≠ '+' := by
      rintro rfl
      cases hc
    have hdue : dueBehind due c = (due && Text.isBlank c) := by
      rw [dueBehind, hc]
      cases Text.isBlank c <;> simp
    rw [List.cons_append, dropPlus, if_neg fun h => hplus h.1, ih hw, hdue, List.all_cons,
      Bool.and_assoc, List.cons_append]

theorem dropPlus_cons_symbol {due : Bool} {s : Symbol} {rest : List Char}
    (h : s = .op .add → ¬ (due = true ∧ takesSign (Piece.leadingWord rest) = true)) :
    dropPlus due (s.char :: rest) = s.char :: dropPlus (symbol s).awaitsOperand rest := by
  have hnot : ¬ (s.char = '+' ∧ due = true ∧ takesSign (Piece.leadingWord rest) = true) := by
    rintro ⟨hplus, hfold⟩
    have hs : Symbol.ofChar? s.char = some (.op .add) := by
      rw [hplus]
      rfl
    rw [Symbol.ofChar?_char, Option.some_inj] at hs
    exact h hs hfold
  rw [dropPlus, if_neg hnot, dueBehind_symbol]

/-! ### What stands behind what -/

/-- One token may stand right in front of the other: not both are operands, and a negated operand
stands only where an operand is due. -/
def MayPrecede (t u : Token) : Prop :=
  (t.operand? = none ∨ u.operand? = none) ∧
    ∀ a, u = operand a → a.negated = true → t.awaitsOperand = true

/-- A piece that is a token of its own may stand behind a symbol, and a symbol behind anything. -/
theorem mayPrecede_ofPiece {t : Token} {p : Piece} (h : t.operand? = none ∨ p.isSymbol = true) :
    MayPrecede t (ofPiece p) := by
  cases p with
  | symbol s => exact ⟨Or.inr rfl, fun a ha => nomatch ha⟩
  | word w =>
    refine ⟨Or.inl (h.resolve_right (by simp [Piece.isSymbol])), fun a ha hnegated => ?_⟩
    cases ha
    cases hnegated

/-- Where no operand is due, the first piece is a token of its own. -/
theorem head?_foldSigns_false (pieces : List Piece) :
    (foldSigns false pieces).head? = pieces.head?.map ofPiece := by
  cases pieces with
  | nil => rw [foldSigns]; rfl
  | cons p rest => rw [foldSigns_false_cons]; rfl

/-- Folding signs puts no two operands together, and a minus sign is folded only where an operand is
due. -/
theorem isChain_mayPrecede_foldSigns {due : Bool} {pieces : List Piece}
    (h : pieces.IsChain Piece.Apart) : (foldSigns due pieces).IsChain MayPrecede := by
  fun_induction foldSigns due pieces with
  | case1 due => exact List.isChain_nil
  | case2 due p => exact List.isChain_singleton _
  | case3 due p q rest t ht ih =>
    obtain ⟨-, hsigned⟩ := Option.ite_none_right_eq_some.mp ht
    obtain ⟨o, w, a, rfl, rfl, rfl⟩ := exists_of_signed?_eq_some hsigned
    obtain ⟨hbehind, hrest⟩ := List.isChain_cons.mp h.tail
    refine (ih hrest).cons fun u hu => ?_
    -- The word of the operand is behind the sign, so what is behind the word is a symbol.
    rw [head?_foldSigns_false] at hu
    obtain ⟨r, hr, rfl⟩ := Option.map_eq_some_iff.mp hu
    exact mayPrecede_ofPiece (Or.inr ((hbehind r hr).resolve_left (by simp [Piece.isSymbol])))
  | case4 due p q rest hnone ih =>
    obtain ⟨hpq, hrest⟩ := List.isChain_cons_cons.mp h
    refine (ih hrest).cons fun u hu => ?_
    cases hawaits : (ofPiece p).awaitsOperand with
    | true =>
      -- Only a symbol awaits an operand.
      cases p with
      | symbol s => exact ⟨Or.inl rfl, fun a _ _ => hawaits⟩
      | word w => cases hawaits
    | false =>
      rw [hawaits, head?_foldSigns_false] at hu
      obtain rfl : ofPiece q = u := by simpa using hu
      refine mayPrecede_ofPiece (hpq.imp_left fun hp => ?_)
      cases p with
      | symbol s => rfl
      | word w => cases hp

/-! ### Nothing is lost -/

/-- A sign is not folded into a line that begins with no literal and no name. -/
theorem signed?_eq_none {line : List Char} {p q : Piece}
    (h : takesSign (Piece.leadingWord line) = false) (hq : (Piece.ofLine line).head? = some q) :
    signed? p q = none := by
  cases hsigned : signed? p q with
  | none => rfl
  | some t =>
    obtain ⟨w, negated, rfl, htakes, -⟩ := exists_word_of_signed?_eq_some hsigned
    obtain ⟨-, rfl⟩ := Piece.head?_ofLine_eq_word_iff.mp hq
    rw [h] at htakes
    cases htakes

theorem ne_nil_of_takesSign {w : List Char} (h : takesSign w = true) : w ≠ [] := by
  rintro rfl
  cases h

/-- The text of the tokens that pieces come to, without blanks. -/
def solidText (due : Bool) (pieces : List Piece) : List Char :=
  solid ((foldSigns due pieces).flatMap text)

/-- A word at the front is an operand, whether or not one is due. -/
theorem solidText_word_cons (due : Bool) (w : List Char) (rest : List Piece) :
    solidText due (.word w :: rest) = solid w ++ solidText false rest := by
  rw [solidText, foldSigns_cons (fun _ q => by cases q <;> rfl), List.flatMap_cons,
    Text.solid_append]
  rfl

/-- A symbol at the front that folds with nothing stays where it is. -/
theorem solidText_symbol_cons {due : Bool} {s : Symbol} {rest : List Piece}
    (h : due = true → ∀ q, rest.head? = some q → signed? (.symbol s) q = none) :
    solidText due (.symbol s :: rest) = s.char :: solidText (symbol s).awaitsOperand rest := by
  rw [solidText, foldSigns_cons_of_head? h, List.flatMap_cons, Text.solid_append]
  exact congrArg (· ++ _) (Text.solid_cons_of_not_blank s.isBlank_char [])

/-- A sign folded into a word leaves its minus sign and the word. -/
theorem solidText_folded {w : List Char} (h : takesSign w = true) (rest : List Piece) :
    solidText true (.symbol (.op .add) :: .word w :: rest) = solid w ++ solidText false rest ∧
      solidText true (.symbol (.op .sub) :: .word w :: rest) =
        '-' :: (solid w ++ solidText false rest) := by
  have hadd : signed? (.symbol (.op .add)) (.word w) = some (operand ⟨false, w⟩) := if_pos h
  have hsub : signed? (.symbol (.op .sub)) (.word w) = some (operand ⟨true, w⟩) := if_pos h
  have hminus : solid ('-' :: w) = '-' :: solid w :=
    Text.solid_cons_of_not_blank (Symbol.isBlank_char (.op .sub)) w
  constructor
  · rw [solidText, foldSigns, if_pos rfl, hadd, List.flatMap_cons, Text.solid_append]
    rfl
  · rw [solidText, foldSigns, if_pos rfl, hsub, List.flatMap_cons, Text.solid_append]
    exact congrArg (· ++ _) hminus

/-- Nothing is lost of a symbol and the line behind it, if nothing is lost of this line. -/
theorem solidText_symbol_cons_ofLine {rest : List Char}
    (ih : ∀ due, solidText due (Piece.ofLine rest) = solid (dropPlus due rest)) (due : Bool)
    (s : Symbol) :
    solidText due (.symbol s :: Piece.ofLine rest) = solid (dropPlus due (s.char :: rest)) := by
  have hsolid : ∀ t, solid (s.char :: t) = s.char :: solid t :=
    Text.solid_cons_of_not_blank s.isBlank_char
  -- Where no sign is folded, the symbol is a token of its own and is not dropped.
  have hplain : (due = true → ∀ q, (Piece.ofLine rest).head? = some q →
        signed? (.symbol s) q = none) →
      (s = .op .add → ¬ (due = true ∧ takesSign (Piece.leadingWord rest) = true)) →
      solidText due (.symbol s :: Piece.ofLine rest) = solid (dropPlus due (s.char :: rest)) := by
    intro hsigned hkept
    rw [solidText_symbol_cons hsigned, ih, dropPlus_cons_symbol hkept, hsolid]
  by_cases hfold : due = true ∧ takesSign (Piece.leadingWord rest) = true
  · obtain ⟨rfl, htakes⟩ := hfold
    obtain ⟨more, hmore⟩ := List.head?_eq_some_iff.mp
      (Piece.head?_ofLine_eq_word_iff.mpr ⟨ne_nil_of_takesSign htakes, rfl⟩)
    have hrest := ih true
    rw [hmore, solidText_word_cons] at hrest
    obtain ⟨hadd, hsub⟩ := solidText_folded htakes more
    rcases s with (_ | _ | _ | _) | _ | _
    · -- The plus sign is dropped on both sides.
      rw [hmore, hadd, hrest, dropPlus, if_pos ⟨rfl, rfl, htakes⟩]
      rfl
    · -- The minus sign stays on both sides.
      have hdrop := @dropPlus_cons_symbol true (.op .sub) rest (fun h => by cases h)
      rw [hmore, hsub, hrest, hdrop, hsolid]
      rfl
    all_goals
      exact hplain (fun _ q _ => signed?_separator rfl q) (fun h => by cases h)
  · refine hplain (fun hdue q hq => signed?_eq_none ?_ hq) fun _ => hfold
    exact Bool.eq_false_iff.mpr fun htakes => hfold ⟨hdue, htakes⟩

/-- A stretch in front of pieces is an operand, or nothing if it is blank. -/
theorem solidText_stretch_append {w : List Char} (hw : ∀ c ∈ w, Symbol.ofChar? c = none)
    (due : Bool) (pieces : List Piece) :
    solidText due (Piece.ofLine w ++ pieces) =
      solid w ++ solidText (due && w.all Text.isBlank) pieces := by
  rw [Piece.ofLine_of_not_symbol hw]
  split
  · next htrim =>
    have hblank := Text.trim_eq_nil_iff.mp htrim
    rw [Text.solid_eq_nil hblank, List.all_eq_true.mpr hblank, Bool.and_true]
    rfl
  · next htrim =>
    have hnot : w.all Text.isBlank = false := by
      rw [← Bool.not_eq_true, List.all_eq_true, ← Text.trim_eq_nil_iff]
      exact htrim
    rw [List.singleton_append, solidText_word_cons, Text.solid_trim, hnot, Bool.and_false]

/-- The tokens of a line are the line without the plus signs that belong to an operand, blanks left
aside. -/
theorem solidText_ofLine (due : Bool) (line : List Char) :
    solidText due (Piece.ofLine line) = solid (dropPlus due line) := by
  induction line using Piece.line_induction generalizing due with
  | stretch w hw =>
    have hpieces := solidText_stretch_append hw due []
    have hdrop := dropPlus_append hw due []
    rw [List.append_nil] at hpieces hdrop
    rw [hpieces, hdrop, Text.solid_append]
    rfl
  | symbol w s rest hw ih =>
    rw [Piece.ofLine_append_symbol, solidText_stretch_append hw, solidText_symbol_cons_ofLine ih,
      dropPlus_append hw, Text.solid_append]

/-! ### The tokens of a line -/

/-- The text is that of a symbol. -/
def IsSymbolText (t : List Char) : Prop := ∃ s : Symbol, t = [s.char]

/-- What the texts of tokens look like that come from a text with merged signs: none is empty or has
a blank at an end; each is a symbol, a text without symbols, or a minus sign with a literal or name;
between two operands there is a symbol; a minus sign belongs to an operand only where one is due;
and but for blanks, the plus signs that belong to an operand are all that is missing. -/
structure LaidOut (merged : List Char) (texts : List (List Char)) : Prop where
  trimmed : ∀ t ∈ texts, t ≠ [] ∧ Text.Trimmed t
  shape : ∀ t ∈ texts, IsSymbolText t ∨ (∀ c ∈ t, Symbol.ofChar? c = none) ∨
    ∃ w, takesSign w = true ∧ t = '-' :: w
  apart : texts.IsChain fun t u => IsSymbolText t ∨ IsSymbolText u
  signed_behind : texts.IsChain fun t u => ∀ w, w ≠ [] → u = '-' :: w →
    ∃ s : Symbol, s ≠ .rightParen ∧ t = [s.char]
  lossless : solid texts.flatten = solid (dropPlus true merged)

theorem WellFormed.trimmed_text {t : Token} (h : t.WellFormed) :
    t.text ≠ [] ∧ Text.Trimmed t.text := by
  rcases t with s | ⟨negated, w⟩
  · refine ⟨List.cons_ne_nil _ _, ?_, ?_⟩ <;>
    · intro c hc
      obtain rfl : s.char = c := by simpa [text] using hc
      exact s.isBlank_char
  · obtain ⟨hword, -⟩ := h
    cases negated with
    | false => exact ⟨hword.ne_nil, hword.trimmed⟩
    | true =>
      refine ⟨List.cons_ne_nil _ _, fun c hc => ?_, fun c hc => ?_⟩
      · obtain rfl : '-' = c := by simpa [text, Operand.text] using hc
        exact Symbol.isBlank_char (.op .sub)
      · -- The last character is that of the word.
        have hlast : ('-' :: w).getLast? = w.getLast? := by
          rw [← List.singleton_append, List.getLast?_append_of_ne_nil _ hword.ne_nil]
        exact hword.trimmed.last_not_blank c (hlast ▸ hc)

theorem WellFormed.shape_text {t : Token} (h : t.WellFormed) :
    IsSymbolText t.text ∨ (∀ c ∈ t.text, Symbol.ofChar? c = none) ∨
      ∃ w, takesSign w = true ∧ t.text = '-' :: w := by
  rcases t with s | ⟨negated, w⟩
  · exact Or.inl ⟨s, rfl⟩
  · cases negated with
    | false => exact Or.inr (Or.inl h.1.not_symbol)
    | true => exact Or.inr (Or.inr ⟨w, h.2 rfl, rfl⟩)

theorem isSymbolText_of_operand?_eq_none {t : Token} (h : t.operand? = none) :
    IsSymbolText t.text := by
  cases t with
  | symbol s => exact ⟨s, rfl⟩
  | operand a => cases h

/-- Only a negated operand is spelled by a minus sign and more. -/
theorem WellFormed.exists_negated {t : Token} (h : t.WellFormed) {w : List Char} (hw : w ≠ [])
    (htext : t.text = '-' :: w) : ∃ a, t = operand a ∧ a.negated = true := by
  cases t with
  | symbol s => exact absurd (List.cons.inj htext).2.symm hw
  | operand a =>
    refine ⟨a, rfl, (Operand.head?_text_eq_minus_iff h).mp ?_⟩
    have htext' : a.text = '-' :: w := htext
    rw [htext']
    rfl

theorem exists_symbol_of_awaitsOperand {t : Token} (h : t.awaitsOperand = true) :
    ∃ s : Symbol, s ≠ .rightParen ∧ t.text = [s.char] := by
  cases t with
  | symbol s =>
    refine ⟨s, ?_, rfl⟩
    rintro rfl
    cases h
  | operand a => cases h

/-- A line without a doubled `*` or `/` has tokens, and they are laid out as its merged text is. -/
theorem laidOut_of_undoubled {line : List Char} (h : Signs.Undoubled line) :
    ∃ merged tokens, Signs.simplify line = .ok merged ∧ ofLine line = .ok tokens ∧
      LaidOut merged (tokens.map text) := by
  have hwell : ∀ t ∈ scan true line, t.WellFormed := fun t ht => wellFormed_of_mem_scan ht
  have hchain : (scan true line).IsChain MayPrecede :=
    isChain_mayPrecede_foldSigns (Piece.isChain_apart_ofLine _)
  refine ⟨Signs.collapse line, scan true line, Signs.simplify_of_undoubled h,
    ofLine_eq_ok_iff.mpr ⟨h, rfl⟩, ?_, ?_, ?_, ?_, ?_⟩
  · exact List.forall_mem_map.mpr fun t ht => (hwell t ht).trimmed_text
  · exact List.forall_mem_map.mpr fun t ht => (hwell t ht).shape_text
  · refine (List.isChain_map text).mpr (hchain.imp fun t u htu => ?_)
    exact htu.1.imp isSymbolText_of_operand?_eq_none isSymbolText_of_operand?_eq_none
  · refine (List.isChain_map text).mpr (hchain.imp_of_mem_imp fun t u _ hu htu w hw htext => ?_)
    obtain ⟨a, rfl, hnegated⟩ := (hwell u hu).exists_negated hw htext
    exact exists_symbol_of_awaitsOperand (htu.2 a rfl hnegated)
  · rw [← List.flatMap_def]
    exact solidText_ofLine true (Signs.collapse line)

/-- Of three plus signs one belongs to a name and one to a literal; the one in front of the
parenthesis stays. Of two minus signs one belongs to a literal, and it stays in front of it. -/
theorem laidOut_of_undoubled_plus :
    Signs.Undoubled " +(2 * + x / +3.5 * -4 - 1 b)".toList ∧
      LaidOut " +(2 * + x / +3.5 * -4 - 1 b)".toList
        [['+'], ['('], ['2'], ['*'], ['x'], ['/'], ['3', '.', '5'], ['*'], ['-', '4'], ['-'],
          ['1', ' ', 'b'], [')']] ∧
      Text.solid (dropPlus true " +(2 * + x / +3.5 * -4 - 1 b)".toList) =
        "+(2*x/3.5*-4-1b)".toList := by
  have hundoubled : Signs.Undoubled " +(2 * + x / +3.5 * -4 - 1 b)".toList :=
    ⟨by decide +kernel, by decide +kernel⟩
  have hsimplify : Signs.simplify " +(2 * + x / +3.5 * -4 - 1 b)".toList =
      .ok " +(2 * + x / +3.5 * -4 - 1 b)".toList := by
    decide +kernel
  have htokens : (ofLine " +(2 * + x / +3.5 * -4 - 1 b)".toList).map (·.map text) =
      .ok [['+'], ['('], ['2'], ['*'], ['x'], ['/'], ['3', '.', '5'], ['*'], ['-', '4'], ['-'],
        ['1', ' ', 'b'], [')']] := by
    decide +kernel
  obtain ⟨merged, tokens, hmerged, hline, hlaid⟩ := laidOut_of_undoubled hundoubled
  obtain rfl := Except.ok.inj (hsimplify.symm.trans hmerged)
  rw [hline] at htokens
  have htexts : tokens.map text = _ := Except.ok.inj htokens
  rw [htexts] at hlaid
  exact ⟨hundoubled, hlaid, by decide +kernel⟩

end Token

end DeskCalc
