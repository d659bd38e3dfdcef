import DeskCalc.Proofs.Expr.Lines
import DeskCalc.Proofs.Expr.Sentence

/-!
# Merging the signs of an expression

When the runs of signs in a line are merged, a run in front of an atom becomes one sign. If it
stands right behind a sum or difference sign, that sign is part of the run, and both together become
the sign of the sum or difference. The line then spells another expression: the operator is turned
over if the run was a minus sign, and the first atom of the right operand has lost its signs. Its
value is the same, for the right operand is a chain of products and quotients, and negating the
first of its factors negates the chain, since quotients truncate toward zero.

## Main definitions

* `Expr.pieces` — the pieces that spell an expression
* `Sign.turn` — the operator that absorbs a sign
* `Expr.Resigned` — an expression with the value of another one, up to a sign

## Main results

* `exists_resigned` — the sign in front of a chain of factors is the sign of the chain
* `exists_merged` — a line with its signs merged spells an expression with the same value
-/

namespace DeskCalc

/-! ### Signs and operators -/

namespace Sign

/-- The operator that is written as the sign is. -/
def operator : Sign → Operator
  | plus => .add
  | minus => .sub

/-- A minus sign negates. -/
def times : Sign → Int → Int
  | plus, n => n
  | minus, n => -n

/-- The operator that absorbs a sign in front of its right operand: a minus sign turns a sum into a
difference and a difference into a sum. -/
def turn : Sign → Operator → Operator
  | minus, .add => .sub
  | minus, .sub => .add
  | _, o => o

/-- The sign that a run of signs stands for. -/
def ofRun (signs : List Sign) : Sign := if signs.count .minus % 2 = 1 then minus else plus

@[simp] theorem char_operator (s : Sign) : s.operator.char = s.char := by
  cases s <;> rfl

theorem isSign_char (s : Sign) : Signs.isSign s.char = true := by
  cases s <;> rfl

@[simp] theorem map_times_plus (x : Except CalcError Int) : x.map plus.times = x := by
  cases x <;> rfl

@[simp] theorem precedence_turn (s : Sign) (o : Operator) :
    (s.turn o).precedence = o.precedence := by
  cases s <;> cases o <;> rfl

/-- Merging the sign of a sum or difference with a sign behind it. -/
theorem product_char {o : Operator} (ho : Signs.isSign o.char = true) (s : Sign) :
    Signs.product o.char s.char = (s.turn o).char := by
  cases o with
  | add => cases s <;> decide
  | sub => cases s <;> decide
  | mul => cases ho
  | div => cases ho

/-- The operator that absorbs the sign of its right operand has the same value. -/
theorem apply_turn {o : Operator} (ho : Signs.isSign o.char = true) (s : Sign) (l r : Int) :
    o.apply l (s.times r) = (s.turn o).apply l r := by
  cases o with
  | add =>
    cases s with
    | plus => rfl
    | minus => exact congrArg Except.ok (Int.sub_eq_add_neg).symm
  | sub =>
    cases s with
    | plus => rfl
    | minus => exact congrArg Except.ok (Int.sub_neg l r)
  | mul => cases ho
  | div => cases ho

/-- Negating the left operand of a product or quotient negates its value. -/
theorem apply_times {o : Operator} (ho : o.precedence = 2) (s : Sign) (l r : Int) :
    o.apply (s.times l) r = (o.apply l r).map s.times := by
  cases s with
  | plus => rw [map_times_plus, times]
  | minus =>
    cases o with
    | add => cases ho
    | sub => cases ho
    | mul => exact congrArg Except.ok (Int.neg_mul l r)
    | div =>
      by_cases hr : r = 0
      · rw [Operator.apply, Operator.apply, if_pos hr, if_pos hr]
        rfl
      · rw [Operator.apply_div hr, Operator.apply_div hr]
        exact congrArg Except.ok (Int.neg_tdiv l r)

theorem count_map_char (signs : List Sign) :
    (signs.map Sign.char).count '-' = signs.count .minus := by
  induction signs with
  | nil => rfl
  | cons s signs ih => cases s <;> simp [Sign.char, ih]

theorem runSign_map_char (signs : List Sign) :
    Signs.runSign (signs.map Sign.char) = (ofRun signs).char := by
  rw [Signs.runSign, count_map_char, ofRun]
  split <;> rfl

end Sign

namespace Factor

/-- The pieces that spell a factor: its signs, each a piece of its own, and the atom. -/
def pieces (f : Factor) : List Piece :=
  f.signs.map (fun s => .symbol (.op s.operator)) ++ [.word f.atom.text]

/-- The factor with its run of signs merged. -/
def merged (f : Factor) : Factor :=
  ⟨if f.signs = [] then [] else [.ofRun f.signs], f.atom⟩

theorem value_eq (store : Store) (f : Factor) :
    f.value store = (Sign.ofRun f.signs).times (f.atom.value store) := by
  rw [value, Sign.ofRun]
  split <;> rfl

/-- Merging the signs of a factor keeps its value. -/
theorem value_merged (store : Store) (f : Factor) : f.merged.value store = f.value store := by
  rw [value_eq, value_eq]
  by_cases h : f.signs = []
  · simp [merged, h]
  · have hrun : Sign.ofRun [Sign.ofRun f.signs] = Sign.ofRun f.signs := by
      cases Sign.ofRun f.signs <;> rfl
    simp [merged, h, hrun]

end Factor

namespace Expr

/-- The pieces that spell an expression. -/
def pieces (e : Expr Factor) : List Piece := e.inOrder Factor.pieces .symbol

@[simp] theorem pieces_operand (f : Factor) : (operand f).pieces = f.pieces := rfl

@[simp] theorem pieces_paren (e : Expr Factor) : (paren e).pieces =
    .symbol .leftParen :: (e.pieces ++ [.symbol .rightParen]) := rfl

@[simp] theorem pieces_binary (o : Operator) (left right : Expr Factor) :
    (binary o left right).pieces = left.pieces ++ .symbol (.op o) :: right.pieces := rfl

theorem pieces_ne_nil (e : Expr Factor) : e.pieces ≠ [] := by
  cases e <;> simp [Factor.pieces]

/-! ### Expressions with other signs -/

/-- Another expression over the same atoms, none of them behind more than one sign, that has the
same form up to its signs and the same value up to the given sign. -/
structure Resigned (s : Sign) (e e' : Expr Factor) : Prop where
  tightness_eq : e'.tightness = e.tightness
  grouped : e.Grouped → e'.Grouped
  atoms_eq : e'.operands.map Factor.atom = e.operands.map Factor.atom
  signs_le : ∀ f ∈ e'.operands, f.signs.length ≤ 1
  eval_eq : ∀ store, e.eval (Factor.value store) = (e'.eval (Factor.value store)).map s.times

namespace Resigned

variable {s : Sign} {e e' e'' left left' right right' : Expr Factor}

theorem trans (h : Resigned .plus e e') (h' : Resigned s e' e'') : Resigned s e e'' where
  tightness_eq := h'.tightness_eq.trans h.tightness_eq
  grouped hgrouped := h'.grouped (h.grouped hgrouped)
  atoms_eq := h'.atoms_eq.trans h.atoms_eq
  signs_le := h'.signs_le
  eval_eq store := by rw [h.eval_eq, Sign.map_times_plus, h'.eval_eq]

theorem paren (h : Resigned s e e') : Resigned s (.paren e) (.paren e') where
  tightness_eq := rfl
  grouped := h.grouped
  atoms_eq := h.atoms_eq
  signs_le := h.signs_le
  eval_eq := h.eval_eq

/-- An operator may absorb the sign of its right operand. -/
theorem binary {o o' : Operator} (hprec : o'.precedence = o.precedence)
    (happly : ∀ l r, o.apply l (s.times r) = o'.apply l r)
    (hl : Resigned .plus left left') (hr : Resigned s right right') :
    Resigned .plus (.binary o left right) (.binary o' left' right') where
  tightness_eq := hprec
  grouped := by
    rintro ⟨hlt, hrt, hgl, hgr⟩
    refine ⟨?_, ?_, hl.grouped hgl, hr.grouped hgr⟩
    · rw [hl.tightness_eq, hprec]
      exact hlt
    · rw [hr.tightness_eq, hprec]
      exact hrt
  atoms_eq := by rw [operands, operands, List.map_append, List.map_append, hl.atoms_eq, hr.atoms_eq]
  signs_le f hf := (List.mem_append.mp hf).elim (hl.signs_le f) (hr.signs_le f)
  eval_eq store := by
    rw [eval, eval, hl.eval_eq, hr.eval_eq, Sign.map_times_plus, Sign.map_times_plus]
    cases left'.eval (Factor.value store) with
    | error err => rfl
    | ok l =>
      cases right'.eval (Factor.value store) with
      | error err => rfl
      | ok r => exact happly l r

/-- The sign of its first factor is the sign of a product or quotient. -/
theorem binary_left {q : Operator} (hq : q.precedence = 2) (hl : Resigned s left left')
    (hsigns : ∀ f ∈ right.operands, f.signs.length ≤ 1) :
    Resigned s (.binary q left right) (.binary q left' right) where
  tightness_eq := rfl
  grouped := by
    rintro ⟨hlt, hrt, hgl, hgr⟩
    refine ⟨?_, hrt, hl.grouped hgl, hgr⟩
    rw [hl.tightness_eq]
    exact hlt
  atoms_eq := by rw [operands, operands, List.map_append, List.map_append, hl.atoms_eq]
  signs_le f hf := (List.mem_append.mp hf).elim (hl.signs_le f) (hsigns f)
  eval_eq store := by
    rw [eval, eval, hl.eval_eq]
    cases left'.eval (Factor.value store) with
    | error err => rfl
    | ok l =>
      cases right.eval (Factor.value store) with
      | error err => rfl
      | ok r => exact Sign.apply_times hq s l r

end Resigned

/-- If the pieces of a chain of factors begin with a sign, the pieces behind it spell a chain whose
value has this sign. -/
theorem exists_resigned {e : Expr Factor} {o : Operator} {rest : List Piece}
    (hgrouped : e.Grouped) (htight : 2 ≤ e.tightness)
    (hsigns : ∀ f ∈ e.operands, f.signs.length ≤ 1)
    (h : e.pieces = .symbol (.op o) :: rest) :
    ∃ s e', Resigned s e e' ∧ o = s.operator ∧ e'.pieces = rest := by
  induction e generalizing rest with
  | operand f =>
    obtain ⟨signs, atom⟩ := f
    have hlength : signs.length ≤ 1 := hsigns _ (List.mem_singleton_self _)
    match signs, hlength with
    | [], _ => cases h
    | [s], _ =>
      -- The only sign is the first piece, and the atom is left.
      cases h
      refine ⟨s, .operand ⟨[], atom⟩, ⟨rfl, id, rfl, by simp [operands], fun store => ?_⟩, rfl, rfl⟩
      have hrun : Sign.ofRun [s] = s := by cases s <;> rfl
      rw [eval, eval, Factor.value_eq, Factor.value_eq, hrun]
      rfl
  | paren e ih => cases h
  | binary q left right ihl ihr =>
    obtain ⟨hlt, hrt, hgl, hgr⟩ := hgrouped
    have hq : q.precedence = 2 := by
      have h2 : 2 ≤ q.precedence := htight
      rcases q.precedence_eq with h1 | h1 <;> omega
    -- The first piece of the chain is that of its first factor, which ends up without its sign.
    cases hpieces : left.pieces with
    | nil => exact absurd hpieces left.pieces_ne_nil
    | cons p ps =>
      rw [pieces_binary, hpieces, List.cons_append, List.cons.injEq] at h
      obtain ⟨rfl, rfl⟩ := h
      obtain ⟨s, left', hleft, ho, rfl⟩ := ihl hgl (by omega)
        (fun f hf => hsigns f (List.mem_append_left _ hf)) hpieces
      exact ⟨s, .binary q left' right,
        hleft.binary_left hq fun f hf => hsigns f (List.mem_append_right _ hf), ho, rfl⟩

/-! ### Lines with their signs merged -/

theorem isSign_eq_false_of_ne_operator {c : Char} (h : ∀ o : Operator, c ≠ o.char) :
    Signs.isSign c = false := by
  have hplus : c ≠ '+' := h .add
  have hminus : c ≠ '-' := h .sub
  simp [Signs.isSign, hplus, hminus]

theorem isSign_eq_false_of_isBlank {c : Char} (h : Text.isBlank c = true) :
    Signs.isSign c = false :=
  isSign_eq_false_of_ne_operator (ne_operator_of_isBlank h)

/-- The line of an expression keeps its signs from whatever stands behind it. -/
theorem Spells.collapse_append {e : Expr Factor} {line : List Char} (h : e.Spells line)
    (behind : List Char) :
    Signs.collapse (line ++ behind) = Signs.collapse line ++ Signs.collapse behind := by
  obtain ⟨s, c, rfl, hc⟩ := h.exists_concat
  have hsign := isSign_eq_false_of_ne_operator hc
  rw [List.append_assoc, List.singleton_append, Signs.collapse_append_cons hsign,
    Signs.collapse_append_cons hsign, Signs.collapse_nil, List.append_assoc, List.singleton_append]

/-- Merging the signs in the line of an operand merges those of the operand. -/
theorem ofLine_collapse_operand {f : Factor} {before between behind : List Char}
    (hf : f.atom.WellFormed) (hbefore : ∀ c ∈ before, Text.isBlank c = true)
    (hbetween : ∀ c ∈ between, Text.isBlank c = true)
    (hbehind : ∀ c ∈ behind, Text.isBlank c = true) :
    Piece.ofLine (Signs.collapse
      (before ++ (f.signs.map Sign.char ++ (between ++ f.atom.text ++ behind)))) =
        f.merged.pieces := by
  have hword := Atom.isWord_text hf
  have hatom : ∀ c ∈ between ++ f.atom.text ++ behind, Signs.isSign c = false := by
    intro c hc
    rw [List.mem_append, List.mem_append] at hc
    rcases hc with (hc | hc) | hc
    · exact isSign_eq_false_of_isBlank (hbetween c hc)
    · exact isSign_eq_false_of_ne_operator (ne_operator_of_ofChar? (hword.not_symbol c hc))
    · exact isSign_eq_false_of_isBlank (hbehind c hc)
  rw [Signs.collapse_append_of_not_isSign fun c hc => isSign_eq_false_of_isBlank (hbefore c hc)]
  by_cases hsigns : f.signs = []
  · have hblanks : ∀ c ∈ before ++ between, Text.isBlank c = true :=
      fun c hc => (List.mem_append.mp hc).elim (hbefore c) (hbetween c)
    have hline := Piece.ofLine_word hblanks hword hbehind
    rw [hsigns, List.map_nil, List.nil_append, Signs.collapse_eq_self_of_not_isSign hatom,
      ← List.append_assoc, ← List.append_assoc, hline]
    simp [Factor.merged, Factor.pieces, hsigns]
  · -- The run becomes one sign, which is cut off from the blanks and the atom around it.
    have hrun : ∀ c ∈ f.signs.map Sign.char, Signs.isSign c = true := by
      intro c hc
      obtain ⟨s, -, rfl⟩ := List.mem_map.mp hc
      exact s.isSign_char
    have hhead : (between ++ f.atom.text ++ behind).head?.any Signs.isSign = false := by
      rw [← Bool.not_eq_true, Option.any_eq_true]
      rintro ⟨c, hc, hsign⟩
      rw [hatom c (List.mem_of_mem_head? hc)] at hsign
      cases hsign
    rw [Signs.collapse_run_append hrun (by simpa using hsigns) hhead,
      Signs.collapse_eq_self_of_not_isSign hatom, Sign.runSign_map_char, ← Sign.char_operator]
    have hcut := Piece.ofLine_append_symbol before (between ++ f.atom.text ++ behind)
      (.op (Sign.ofRun f.signs).operator)
    rw [Piece.ofLine_blanks hbefore, Piece.ofLine_word hbetween hword hbehind] at hcut
    refine hcut.trans ?_
    simp [Factor.merged, Factor.pieces, hsigns]

/-- Merging the signs in the line of a parenthesis merges those between its two sides. -/
theorem ofLine_collapse_paren {before line behind : List Char}
    (hbefore : ∀ c ∈ before, Text.isBlank c = true)
    (hbehind : ∀ c ∈ behind, Text.isBlank c = true) :
    Piece.ofLine (Signs.collapse (before ++ '(' :: (line ++ ')' :: behind))) =
      .symbol .leftParen :: (Piece.ofLine (Signs.collapse line) ++ [.symbol .rightParen]) := by
  have hblanks : ∀ b : List Char, (∀ c ∈ b, Text.isBlank c = true) → Signs.collapse b = b :=
    fun b hb => Signs.collapse_eq_self_of_not_isSign fun c hc =>
      isSign_eq_false_of_isBlank (hb c hc)
  rw [Signs.collapse_append_cons (by decide), Signs.collapse_append_cons (by decide),
    hblanks before hbefore, hblanks behind hbehind]
  have hopen := Piece.ofLine_append_symbol before (Signs.collapse line ++ ')' :: behind)
    .leftParen
  have hclose := Piece.ofLine_append_symbol (Signs.collapse line) behind .rightParen
  rw [Piece.ofLine_blanks hbehind] at hclose
  rw [Piece.ofLine_blanks hbefore, List.nil_append] at hopen
  exact hopen.trans (congrArg (Piece.symbol .leftParen :: ·) hclose)

theorem resigned_merged (f : Factor) : Resigned .plus (operand f) (operand f.merged) where
  tightness_eq := rfl
  grouped := id
  atoms_eq := rfl
  signs_le g hg := by
    rw [List.mem_singleton.mp hg, Factor.merged]
    dsimp only
    split <;> simp
  eval_eq store := by rw [Sign.map_times_plus, eval, eval, f.value_merged]

/-- A line with its signs merged spells an expression with the same value. -/
theorem exists_merged {e : Expr Factor} {line : List Char} (h : e.Spells line)
    (hgrouped : e.Grouped) :
    ∃ e', Resigned .plus e e' ∧ Piece.ofLine (Signs.collapse line) = e'.pieces := by
  induction h with
  | @operand f _ _ _ hf hbefore hbetween hbehind =>
    exact ⟨_, resigned_merged f, ofLine_collapse_operand hf hbefore hbetween hbehind⟩
  | @paren e before line behind hbefore _ hbehind ih =>
    obtain ⟨e', he, hpieces⟩ := ih hgrouped
    refine ⟨_, he.paren, ?_⟩
    rw [ofLine_collapse_paren hbefore hbehind, hpieces]
    rfl
  | @binary left right s t o hl hr ihl ihr =>
    obtain ⟨left', hleft, hpiecesl⟩ := ihl hgrouped.2.2.1
    obtain ⟨right', hright, hpiecesr⟩ := ihr hgrouped.2.2.2
    rw [hl.collapse_append, Signs.collapse_cons]
    rcases Signs.absorb_eq_cons_or o.char (Signs.collapse t) with habsorb |
      ⟨d, u, hu, hop, hd, habsorb⟩
    · -- The operator stays apart from what is behind it, so both operands are merged on their own.
      refine ⟨_, hleft.binary rfl (fun l r => rfl) hright, ?_⟩
      have hcut := Piece.ofLine_append_symbol (Signs.collapse s) (Signs.collapse t) (.op o)
      rw [hpiecesl, hpiecesr] at hcut
      rw [habsorb]
      exact hcut
    · -- The sign behind the operator goes into the operator, and the right operand loses it.
      obtain ⟨q, rfl⟩ : ∃ q : Operator, d = q.char := by
        rcases Signs.isSign_iff.mp hd with rfl | rfl
        · exact ⟨.add, rfl⟩
        · exact ⟨.sub, rfl⟩
      have hfront := Piece.ofLine_append_symbol [] u (.op q)
      have hpieces : right'.pieces = .symbol (.op q) :: Piece.ofLine u := by
        rw [← hpiecesr, hu]
        exact hfront
      have htight : 2 ≤ right'.tightness := by
        have hlt : o.precedence < right.tightness := hgrouped.2.1
        have hone := Operator.one_le_precedence o
        rw [hright.tightness_eq]
        omega
      obtain ⟨s', right'', hsigned, rfl, hpieces''⟩ :=
        exists_resigned (hright.grouped hgrouped.2.2.2) htight hright.signs_le hpieces
      refine ⟨_, hleft.binary (s'.precedence_turn o) (s'.apply_turn hop) (hright.trans hsigned), ?_⟩
      have hcut := Piece.ofLine_append_symbol (Signs.collapse s) u (.op (s'.turn o))
      rw [hpiecesl, ← hpieces''] at hcut
      rw [habsorb, Sign.char_operator, Sign.product_char hop]
      exact hcut

end Expr

end DeskCalc
