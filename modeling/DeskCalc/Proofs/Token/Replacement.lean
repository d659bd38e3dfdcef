import DeskCalc.Proofs.Piece.Replacement
import DeskCalc.Proofs.Token.Shape
import DeskCalc.Proofs.Token.Spacing

/-!
# Tokens of a line with replaced words

A word between two texts is a token of its own unless the text before it ends in a sign that is
free, that is, in front of which an operand is due: such a sign is folded into a literal or a name.
Otherwise the tokens before the word and those behind it do not depend on it. Where all the words of
a line become words that take signs as they do, the tokens of the line are replaced one by one,
since merging signs moves no word.

## Main definitions

* `Token.endsInFreeSign` — the tokens end in a sign that is folded into a word behind them
* `Token.mapWord` — a token with its word replaced

## Main results

* `scan_append_word`, `exists_scan_append_word` — a word is a token of its own or takes a free sign
* `word_mem_of_operand_mem_scan` — the words of the operands are words of the line
* `collapse_replaceWords` — words may be replaced before signs are merged or after it
* `scan_replaceWords` — the tokens of a line whose words become words
-/

namespace DeskCalc

open Piece (Closes IsWord Opens replaceInStretch replaceWords)

variable {before behind w : List Char}

/-! ### A word between two texts -/

namespace Piece

theorem isSign_eq_false_of_not_symbol (hw : ∀ c ∈ w, Symbol.ofChar? c = none) :
    ∀ c ∈ w, Signs.isSign c = false :=
  fun c hc => Signs.isSign_eq_false_of_ofChar? (hw c hc)

theorem isSign_eq_false_of_isWord (hw : IsWord w) : ∀ c ∈ w, Signs.isSign c = false :=
  isSign_eq_false_of_not_symbol hw.not_symbol

/-- A word in front of a text begins with no sign. -/
theorem head?_word_append_any_isSign (hw : IsWord w) (s : List Char) :
    (w ++ s).head?.any Signs.isSign = false := by
  obtain ⟨c, t, rfl⟩ := List.exists_cons_of_ne_nil hw.ne_nil
  exact isSign_eq_false_of_isWord hw c List.mem_cons_self

/-- Merging signs does not reach across a word. -/
theorem collapse_append_word (hw : IsWord w) (before behind : List Char) :
    Signs.collapse (before ++ (w ++ behind)) =
      Signs.collapse before ++ (w ++ Signs.collapse behind) := by
  rw [Signs.collapse_append (head?_word_append_any_isSign hw behind),
    Signs.collapse_append_of_not_isSign (isSign_eq_false_of_isWord hw)]

theorem isSign_eq_false_of_isBlank {b : List Char} (hb : ∀ c ∈ b, Text.isBlank c = true) :
    ∀ c ∈ b, Signs.isSign c = false :=
  isSign_eq_false_of_not_symbol fun c hc => ofChar?_eq_none_of_isBlank (hb c hc)

/-- Merging signs leaves the symbol at the end of a text, or another one in its place. -/
theorem Opens.collapse (h : Opens before) : Opens (Signs.collapse before) := by
  obtain ⟨front, b, rfl, hb, hfront⟩ := h
  have hsigns := isSign_eq_false_of_isBlank hb
  refine ⟨Signs.collapse front, b, ?_, hb, ?_⟩
  · have hhead : b.head?.any Signs.isSign = false := by
      cases b with
      | nil => rfl
      | cons c b => exact hsigns c List.mem_cons_self
    rw [Signs.collapse_append hhead, Signs.collapse_eq_self_of_not_isSign hsigns]
  · have hlast := congrArg (Option.all id) (Signs.map_getLast?_collapse (f := isCut) rfl front)
    rw [Option.all_map, Option.all_map] at hlast
    exact hlast.trans hfront

/-- Merging signs leaves the symbol at the front of a text, or another one in its place. -/
theorem Closes.collapse (h : Closes behind) : Closes (Signs.collapse behind) := by
  obtain ⟨b, back, rfl, hb, hback⟩ := h
  refine ⟨b, Signs.collapse back,
    Signs.collapse_append_of_not_isSign (isSign_eq_false_of_isBlank hb) back, hb, ?_⟩
  have hhead := congrArg (Option.all id) (Signs.map_head?_collapse (f := isCut) rfl back)
  rw [Option.all_map, Option.all_map] at hhead
  exact hhead.trans hback

end Piece

/-- A word doubles no `*` or `/`, and keeps those before it from those behind it. -/
theorem Signs.undoubled_append_word (hw : IsWord w) (before behind : List Char) :
    Undoubled (before ++ (w ++ behind)) ↔ Undoubled before ∧ Undoubled behind := by
  have hhead : ∀ s : Symbol, (w ++ behind).head? ≠ some s.char := by
    obtain ⟨c, t, rfl⟩ := List.exists_cons_of_ne_nil hw.ne_nil
    intro s hs
    have hnone := hw.not_symbol c List.mem_cons_self
    rw [Option.some.inj hs, Symbol.ofChar?_char] at hnone
    cases hnone
  rw [undoubled_append (fun h => hhead (.op .mul) h.2) fun h => hhead (.op .div) h.2,
    undoubled_not_symbol_append hw.not_symbol]

theorem depthAfter?_append_word (hw : IsWord w) (depth : Nat) (before behind : List Char) :
    depthAfter? depth (before ++ (w ++ behind)) =
      (depthAfter? depth before).bind fun d => depthAfter? d behind := by
  rw [depthAfter?_append]
  exact congrArg _ (funext fun d => depthAfter?_not_symbol_append hw.not_symbol d behind)

namespace Token

/-! ### Signs in front of a word -/

/-- The token is a plus or a minus. -/
def isSign : Token → Bool
  | symbol (.op .add) => true
  | symbol (.op .sub) => true
  | _ => false

/-- The tokens end in a sign in front of which an operand is due, where `due` says whether one is
due in front of all of them. Such a sign is folded into the literal or name behind it. -/
def endsInFreeSign : Bool → List Token → Bool
  | _, [] => false
  | due, [t] => due && t.isSign
  | _, t :: u :: tokens => endsInFreeSign t.awaitsOperand (u :: tokens)

/-- Without the first token, tokens still do not end in a free sign. -/
theorem endsInFreeSign_of_cons {due : Bool} {t : Token} {tokens : List Token}
    (h : endsInFreeSign due (t :: tokens) = false) :
    endsInFreeSign t.awaitsOperand tokens = false := by
  cases tokens with
  | nil => rfl
  | cons u tokens => exact h

/-- Behind an operand, tokens end in a free sign if they do so where no operand is due. -/
theorem endsInFreeSign_operand_cons (due : Bool) (a : Operand) (tokens : List Token) :
    endsInFreeSign due (operand a :: tokens) = endsInFreeSign false tokens := by
  cases tokens with
  | nil => exact Bool.and_false due
  | cons t tokens => rfl

theorem signed?_eq_none_of_not_isSign {p : Piece} (h : (ofPiece p).isSign = false) (q : Piece) :
    signed? p q = none := by
  rcases p with (o | _ | _) | w
  · cases o with
    | add | sub => cases h
    | mul | div => exact signed?_separator rfl q
  · exact signed?_separator rfl q
  · exact signed?_separator rfl q
  · cases q <;> rfl

theorem exists_operand_of_folded {due : Bool} {p q : Piece} {t : Token}
    (h : (if due = true then signed? p q else none) = some t) : ∃ a, t = operand a := by
  obtain ⟨-, hsigned⟩ := Option.ite_none_right_eq_some.mp h
  obtain ⟨w, negated, -, -, rfl⟩ := exists_word_of_signed?_eq_some hsigned
  exact ⟨⟨negated, w⟩, rfl⟩

theorem foldSigns_ne_nil {due : Bool} {p : Piece} {rest : List Piece} :
    foldSigns due (p :: rest) ≠ [] := by
  cases rest with
  | nil => rw [foldSigns]; exact List.cons_ne_nil _ _
  | cons q rest =>
    rw [foldSigns]
    split <;> exact List.cons_ne_nil _ _

/-- A word is a token of its own if the tokens before it do not end in a free sign. -/
theorem foldSigns_append_word {due : Bool} {pieces : List Piece}
    (h : endsInFreeSign due (foldSigns due pieces) = false) (w : List Char) (rest : List Piece) :
    foldSigns due (pieces ++ .word w :: rest) =
      foldSigns due pieces ++ operand ⟨false, w⟩ :: foldSigns false rest := by
  have hword : ∀ due, foldSigns due (.word w :: rest) =
      operand ⟨false, w⟩ :: foldSigns false rest := fun due =>
    foldSigns_cons (fun _ q => by cases q <;> rfl) rest
  fun_induction foldSigns due pieces with
  | case1 due => exact hword due
  | case2 due p =>
    have hfold : due = true → signed? p (.word w) = none := by
      rintro rfl
      exact signed?_eq_none_of_not_isSign h _
    rw [List.singleton_append, foldSigns_cons_of_head? fun hdue q hq => ?_, hword]
    · rfl
    · cases hq
      exact hfold hdue
  | case3 due p q more t ht ih =>
    rw [List.cons_append, List.cons_append, foldSigns, ht]
    obtain ⟨a, rfl⟩ := exists_operand_of_folded ht
    simp only [ih (endsInFreeSign_of_cons h), List.cons_append]
  | case4 due p q more hnone ih =>
    rw [List.cons_append, List.cons_append, foldSigns, hnone]
    simp only [← List.cons_append, ih (endsInFreeSign_of_cons h)]

/-- A free sign at the end of the tokens before a literal or a name is folded into it. -/
theorem exists_foldSigns_append_word {due : Bool} {pieces : List Piece}
    (h : endsInFreeSign due (foldSigns due pieces) = true) (htakes : takesSign w = true)
    (rest : List Piece) :
    ∃ front o, foldSigns due pieces = front ++ [symbol (.op o)] ∧
      foldSigns due (pieces ++ .word w :: rest) =
        front ++ operand ⟨decide (o = .sub), w⟩ :: foldSigns false rest := by
  fun_induction foldSigns due pieces with
  | case1 due => cases h
  | case2 due p =>
    obtain ⟨rfl, hsign⟩ := Bool.and_eq_true_iff.mp h
    rcases p with (o | _ | _) | v
    · have hsigned : signed? (.symbol (.op o)) (.word w) =
          some (operand ⟨decide (o = .sub), w⟩) := by
        cases o with
        | add | sub => exact if_pos htakes
        | mul | div => cases hsign
      refine ⟨[], o, rfl, ?_⟩
      rw [List.singleton_append, foldSigns, if_pos rfl, hsigned]
      rfl
    all_goals cases hsign
  | case3 due p q more t ht ih =>
    obtain ⟨a, rfl⟩ := exists_operand_of_folded ht
    rw [endsInFreeSign_operand_cons] at h
    obtain ⟨front, o, hmore, hfold⟩ := ih h
    refine ⟨operand a :: front, o, by rw [hmore, List.cons_append], ?_⟩
    rw [List.cons_append, List.cons_append, foldSigns, ht]
    simp only [hfold, List.cons_append]
  | case4 due p q more hnone ih =>
    -- The first token is not the last one, so it does not matter whether it is free.
    obtain ⟨t, tokens, htokens⟩ := List.exists_cons_of_ne_nil
      (@foldSigns_ne_nil (ofPiece p).awaitsOperand q more)
    rw [htokens] at h ih
    obtain ⟨front, o, hmore, hfold⟩ := ih h
    refine ⟨ofPiece p :: front, o, by rw [htokens, hmore, List.cons_append], ?_⟩
    rw [List.cons_append, List.cons_append, foldSigns, hnone]
    simp only [← List.cons_append, hfold]

theorem scan_word (hw : IsWord w) (due : Bool) : scan due w = [operand ⟨false, w⟩] := by
  have hnone : ∀ c ∈ ([] : List Char), Text.isBlank c = true := by simp
  have hpieces := Piece.ofLine_word hnone hw hnone
  rw [List.append_nil, List.nil_append] at hpieces
  rw [scan, Signs.collapse_eq_self_of_not_isSign (Piece.isSign_eq_false_of_isWord hw), hpieces,
    foldSigns]
  rfl

/-- The tokens of a line with a word that is joined to no other one. -/
theorem scan_eq_foldSigns_append_word (hbefore : Opens before) (hw : IsWord w)
    (hbehind : Closes behind) :
    scan true (before ++ (w ++ behind)) =
      foldSigns true (Piece.ofLine (Signs.collapse before) ++
        .word w :: Piece.ofLine (Signs.collapse behind)) := by
  rw [scan, Piece.collapse_append_word hw,
    Piece.ofLine_append_word hbefore.collapse hw hbehind.collapse]

/-- A word between two texts is a token of its own, if it is joined to no other word and no sign is
folded into it. -/
theorem scan_append_word (hbefore : Opens before) (hw : IsWord w) (hbehind : Closes behind)
    (h : endsInFreeSign true (scan true before) = false) :
    scan true (before ++ (w ++ behind)) =
      scan true before ++ operand ⟨false, w⟩ :: scan false behind := by
  rw [scan_eq_foldSigns_append_word hbefore hw hbehind, foldSigns_append_word h]
  rfl

/-- A literal or a name between two texts takes a free sign at the end of the tokens before it. -/
theorem exists_scan_append_word (hbefore : Opens before) (hw : IsWord w) (hbehind : Closes behind)
    (htakes : takesSign w = true) (h : endsInFreeSign true (scan true before) = true) :
    ∃ front o, scan true before = front ++ [symbol (.op o)] ∧
      scan true (before ++ (w ++ behind)) =
        front ++ operand ⟨decide (o = .sub), w⟩ :: scan false behind := by
  rw [scan_eq_foldSigns_append_word hbefore hw hbehind]
  exact exists_foldSigns_append_word h htakes (Piece.ofLine (Signs.collapse behind))

end Token

/-! ### The words of the tokens -/

namespace Piece

theorem exists_symbol_of_isSign {c : Char} (h : Signs.isSign c = true) :
    ∃ s : Symbol, c = s.char := by
  rcases Signs.isSign_iff.mp h with rfl | rfl
  · exact ⟨.op .add, rfl⟩
  · exact ⟨.op .sub, rfl⟩

/-- A symbol leaves a symbol in front of a line, whether it is a sign that is merged or not. -/
theorem head?_absorb_all_isCut (s : Symbol) (line : List Char) :
    (Signs.absorb s.char line).head?.all isCut = true := by
  rcases Signs.absorb_eq_cons_or s.char line with h | ⟨d, rest, -, -, -, h⟩
  · rw [h]
    exact isCut_iff.mpr ⟨s, rfl⟩
  · rw [h]
    exact isCut_iff.mpr (exists_symbol_of_isSign (Signs.isSign_product s.char d))

/-- A symbol in front of a line brings no word, whether it is a sign that is merged or not. -/
theorem word_mem_ofLine_absorb {v : List Char} (s : Symbol) (line : List Char) :
    word v ∈ ofLine (Signs.absorb s.char line) ↔ word v ∈ ofLine line := by
  have hcons : ∀ (t : Symbol) rest, word v ∈ ofLine (t.char :: rest) ↔ word v ∈ ofLine rest := by
    intro t rest
    rw [ofLine_cons_symbol, List.mem_cons, or_iff_right (by simp)]
  rcases Signs.absorb_eq_cons_or s.char line with h | ⟨d, rest, rfl, -, hd, h⟩
  · rw [h, hcons]
  · obtain ⟨t, ht⟩ := exists_symbol_of_isSign (Signs.isSign_product s.char d)
    obtain ⟨d, rfl⟩ := exists_symbol_of_isSign hd
    rw [h, ht, hcons, hcons]

/-- Merging signs brings no word and takes none away. -/
theorem word_mem_ofLine_collapse {v : List Char} (line : List Char) :
    word v ∈ ofLine (Signs.collapse line) ↔ word v ∈ ofLine line := by
  induction line using line_induction with
  | stretch w hw => rw [Signs.collapse_eq_self_of_not_isSign (isSign_eq_false_of_not_symbol hw)]
  | symbol w s rest hw ih =>
    have hcut := head?_absorb_all_isCut s (Signs.collapse rest)
    rw [Signs.collapse_append_of_not_isSign (isSign_eq_false_of_not_symbol hw), Signs.collapse_cons,
      ofLine_append (Or.inr hcut), ofLine_append_symbol, List.mem_append, List.mem_append,
      word_mem_ofLine_absorb, List.mem_cons]
    exact or_congr Iff.rfl (ih.trans (or_iff_right (by simp)).symm)

end Piece

namespace Token

theorem word_mem_of_operand_mem_scan {due : Bool} {line : List Char} {a : Operand}
    (h : operand a ∈ scan due line) : .word a.word ∈ Piece.ofLine line :=
  (Piece.word_mem_ofLine_collapse line).mp (word_mem_of_operand_mem_foldSigns h).1

end Token

/-! ### Words that become words -/

namespace Piece

variable {g : List Char → List Char}

/-- Replacing words puts no sign in front of a line and takes none away. -/
theorem head?_replaceWords_any_isSign (hg : ∀ v, IsWord v → IsWord (g v)) (line : List Char) :
    (replaceWords (fun _ => g) line).head?.any Signs.isSign = line.head?.any Signs.isSign := by
  refine apply_replaceWords (P := fun s => s.head?.any Signs.isSign)
    (fun before w behind _ hw _ => ?_) line
  cases before with
  | nil =>
    rw [List.nil_append, List.nil_append, head?_word_append_any_isSign hw,
      head?_word_append_any_isSign (hg w hw)]
  | cons c before => rfl

theorem replaceWords_symbol_cons (s : Symbol) (rest : List Char) :
    replaceWords (fun _ => g) (s.char :: rest) = s.char :: replaceWords (fun _ => g) rest :=
  replaceWords_symbol (w := []) (by simp) s rest

/-- A symbol is absorbed by a line whether its words are replaced before or after it, and there is a
symbol in front then. -/
theorem replaceWords_absorb (hg : ∀ v, IsWord v → IsWord (g v)) (s : Symbol) (line : List Char) :
    ∃ (t : Symbol) (rest : List Char), Signs.absorb s.char line = t.char :: rest ∧
      Signs.absorb s.char (replaceWords (fun _ => g) line) =
        t.char :: replaceWords (fun _ => g) rest := by
  by_cases hsign : Signs.isSign s.char = true ∧ line.head?.any Signs.isSign = true
  · -- Both are signs, and their product takes the place of the two.
    obtain ⟨hs, hline⟩ := hsign
    cases line with
    | nil => cases hline
    | cons d line =>
      have hd : Signs.isSign d = true := hline
      obtain ⟨d, rfl⟩ := exists_symbol_of_isSign hd
      obtain ⟨t, ht⟩ := exists_symbol_of_isSign (Signs.isSign_product s.char d.char)
      refine ⟨t, line, ?_, ?_⟩
      · rw [Signs.absorb_cons_of_isSign hs hd, ht]
      · rw [replaceWords_symbol_cons, Signs.absorb_cons_of_isSign hs hd, ht]
  · -- Nothing is merged on either side.
    have hkept : ∀ u : List Char, u.head?.any Signs.isSign = line.head?.any Signs.isSign →
        Signs.absorb s.char u = s.char :: u := by
      intro u hu
      rcases not_and_or.mp hsign with hs | hline
      · exact Signs.absorb_of_not_isSign (Bool.not_eq_true _ ▸ hs) u
      · exact Signs.absorb_of_head?_not_isSign (hu.trans (Bool.not_eq_true _ ▸ hline))
    exact ⟨s, line, hkept line rfl, hkept _ (head?_replaceWords_any_isSign hg line)⟩

/-- Words may be replaced by words before signs are merged or after it. -/
theorem collapse_replaceWords (hg : ∀ v, IsWord v → IsWord (g v)) (line : List Char) :
    Signs.collapse (replaceWords (fun _ => g) line) =
      replaceWords (fun _ => g) (Signs.collapse line) := by
  induction line using line_induction with
  | stretch w hw =>
    have hsigns := isSign_eq_false_of_not_symbol hw
    have hsigns' := isSign_eq_false_of_not_symbol (not_symbol_replaceInStretch hg hw)
    rw [Signs.collapse_eq_self_of_not_isSign hsigns, replaceWords_stretch hw,
      Signs.collapse_eq_self_of_not_isSign hsigns']
  | symbol w s rest hw ih =>
    have hsigns := isSign_eq_false_of_not_symbol hw
    have hsigns' := isSign_eq_false_of_not_symbol (not_symbol_replaceInStretch hg hw)
    obtain ⟨t, u, habsorb, hreplaced⟩ := replaceWords_absorb hg s (Signs.collapse rest)
    rw [replaceWords_symbol hw, Signs.collapse_append_of_not_isSign hsigns,
      Signs.collapse_append_of_not_isSign hsigns', Signs.collapse_cons, Signs.collapse_cons, ih,
      habsorb, hreplaced, replaceWords_symbol hw]

end Piece

/-- An operand with its word replaced. -/
def Operand.mapWord (g : List Char → List Char) (a : Operand) : Operand :=
  { a with word := g a.word }

namespace Token

/-- A token with its word replaced. -/
def mapWord (g : List Char → List Char) : Token → Token
  | symbol s => symbol s
  | operand a => operand (a.mapWord g)

variable {g : List Char → List Char}

theorem ofPiece_mapWord (p : Piece) : ofPiece (p.mapWord g) = (ofPiece p).mapWord g := by
  cases p <;> rfl

@[simp] theorem awaitsOperand_mapWord (t : Token) :
    (t.mapWord g).awaitsOperand = t.awaitsOperand := by
  cases t <;> rfl

theorem signed?_mapWord (htakes : ∀ w, takesSign (g w) = takesSign w) (p q : Piece) :
    signed? (p.mapWord g) (q.mapWord g) = (signed? p q).map (mapWord g) := by
  cases q with
  | symbol s => rw [Piece.mapWord, signed?_symbol, signed?_symbol, Option.map_none]
  | word w =>
    rcases p with (o | _ | _) | v
    · cases o with
      | add | sub =>
        simp only [Piece.mapWord, signed?, htakes]
        split <;> rfl
      | mul | div => rfl
    · rfl
    · rfl
    · rfl

/-- Replacing the words before signs are folded into them or after it comes to the same. -/
theorem foldSigns_mapWord (htakes : ∀ w, takesSign (g w) = takesSign w) (due : Bool)
    (pieces : List Piece) :
    foldSigns due (pieces.map (Piece.mapWord g)) = (foldSigns due pieces).map (mapWord g) := by
  have hsigned : ∀ due p q, (if due = true then signed? (p.mapWord g) (q.mapWord g) else none) =
      (if due = true then signed? p q else none).map (mapWord g) := by
    intro due p q
    rw [signed?_mapWord htakes]
    split <;> rfl
  fun_induction foldSigns due pieces with
  | case1 due => rfl
  | case2 due p => exact congrArg (fun t => [t]) (ofPiece_mapWord p)
  | case3 due p q rest t ht ih =>
    rw [List.map_cons, List.map_cons, foldSigns, hsigned, ht, Option.map_some, List.map_cons]
    simp only [ih]
  | case4 due p q rest hnone ih =>
    rw [List.map_cons, List.map_cons, foldSigns, hsigned, hnone, Option.map_none, List.map_cons,
      ofPiece_mapWord, awaitsOperand_mapWord]
    simp only [← List.map_cons, ih]

theorem scan_replaceWords (hg : ∀ v, IsWord v → IsWord (g v))
    (htakes : ∀ w, takesSign (g w) = takesSign w) (due : Bool) (line : List Char) :
    scan due (replaceWords (fun _ => g) line) = (scan due line).map (mapWord g) := by
  rw [scan, Piece.collapse_replaceWords hg, Piece.ofLine_replaceWords hg, foldSigns_mapWord htakes,
    scan]

end Token

end DeskCalc
