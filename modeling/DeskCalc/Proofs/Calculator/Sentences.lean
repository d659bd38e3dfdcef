import DeskCalc.Proofs.Calculator.UnsetNames
import DeskCalc.Proofs.Expr.Reading
import DeskCalc.Proofs.Postfix.Listings
import DeskCalc.Proofs.Postfix.Ordering

/-!
# Lines that are sentences

A line whose tokens are a sentence over literals and names is that of one grouped expression only.
If all names are set, its postfix text is the post-order of this expression. A name that is not set
leaves too few operands: a lone one leaves no value, and where there are operators, one of them
misses an operand, unless a division by zero comes first.

## Main definitions

* `Operand.spelling` — what the postfix text holds for an operand

## Main results

* `countP_isOperand_tokens` — a sentence has one operand more than operators
* `toPostfix_of_sentence` — a sentence is converted to the post-order of its only reading
* `evaluate_of_sentence_not_contains` — how a sentence with a name that is not set is refused
-/

namespace DeskCalc

open Postfix (Entry entriesFrom listing)

/-! ### What is written for an operand -/

namespace Operand

/-- The text for an operand: a literal as it is spelled, and for a name the decimal text of its
value. -/
def spelling (store : Store) (a : Operand) : List Char :=
  if Numeral.isLiteral a.text then a.text else Numeral.render ((a.value? store).getD 0)

/-- One entry is written for a literal or a name that is set, and it holds the text for it. -/
theorem exists_emit?_eq_some {store : Store} {a : Operand}
    (h : Numeral.isLiteral a.text = true ∨
      isIdentifier a.word = true ∧ store.contains (String.ofList a.word) = true) :
    ∃ entry, a.emit? store = some entry ∧ entry.text = a.spelling store := by
  by_cases hliteral : Numeral.isLiteral a.text = true
  · refine ⟨_, emit?_of_isLiteral hliteral store, ?_⟩
    rw [spelling, if_pos hliteral]
    rfl
  · obtain ⟨hname, hset⟩ := h.resolve_left hliteral
    obtain ⟨v, hv⟩ := Option.isSome_iff_exists.mp hset
    refine ⟨.value (if a.negated then -v else v), ?_, ?_⟩
    · rw [emit?_of_isIdentifier hname, value?, hv]
      rfl
    · rw [spelling, if_neg hliteral, value?, hv]
      rfl

/-- Neither a literal nor a name brings more than one piece. -/
theorem extraPieces_of_literal_or_name {a : Operand}
    (h : Numeral.isLiteral a.text = true ∨ isIdentifier a.word = true) : a.extraPieces = [] := by
  rcases h with hliteral | hname
  · exact Calculator.extraPieces_eq_nil fun _ => (Numeral.space_not_mem_of_isLiteral hliteral).2
  · rw [extraPieces, isVerbatim_of_isIdentifier hname, if_neg Bool.false_ne_true]

end Operand

namespace Expr

variable {α β : Type} {operand : α → Operand}

/-- A sentence has one operand more than it has operators. -/
theorem countP_isOperand_tokens (e : Expr α) :
    (e.tokens operand).countP Token.isOperand = (e.tokens operand).countP Token.isOperator + 1 := by
  induction e with
  | operand a => rfl
  | paren e ih =>
    simp [Token.isOperand, Token.isOperator, ih]
  | binary o left right ihl ihr =>
    simp only [tokens_binary, List.countP_append, List.countP_cons, Token.isOperand,
      Token.isOperator, ihl, ihr, Bool.false_eq_true, if_false, if_true]
    omega

/-- Without operators an expression is an operand in parentheses, and these leave no trace in its
post-order. -/
theorem exists_operand_of_not_op {e : Expr α}
    (h : ∀ o, Token.symbol (.op o) ∉ e.tokens operand) :
    ∃ a, e.operands = [a] ∧ ∀ (f : α → β) (g : Operator → β), e.postOrder f g = [f a] := by
  induction e with
  | operand a => exact ⟨a, rfl, fun _ _ => rfl⟩
  | paren e ih => exact ih fun o ho => h o (by simp [ho])
  | binary o left right _ _ => exact absurd (by simp) (h o)

end Expr

/-- The texts of the entries of an expression are those of its operands and operators, if one entry
is written for each operand. -/
theorem Postfix.map_text_listing {store : Store} {e : Expr Operand}
    (h : ∀ a ∈ e.operands, ∃ entry, a.emit? store = some entry ∧ entry.text = a.spelling store) :
    (listing store id e).map Entry.text =
      e.postOrder (Operand.spelling store) fun o => [o.char] := by
  induction e with
  | operand a =>
    obtain ⟨entry, hentry, htext⟩ := h a (List.mem_singleton_self a)
    simp [Expr.postOrder, hentry, htext]
  | paren e ih => exact ih h
  | binary o left right ihl ihr =>
    have hl := ihl fun a ha => h a (List.mem_append_left _ ha)
    have hr := ihr fun a ha => h a (List.mem_append_right _ ha)
    simp [Expr.postOrder, hl, hr, Entry.text]

namespace Calculator

theorem convertible_of_tokens {line : List Char} {e : Expr Operand}
    (h : Token.ofLine line = .ok (e.tokens id)) :
    Convertible line ∧ Token.scan true line = e.tokens id := by
  obtain ⟨hundoubled, hscan⟩ := Token.ofLine_eq_ok_iff.mp h
  exact ⟨⟨Expr.isBalanced_of_scan hscan.symm, hundoubled⟩, hscan.symm⟩

/-- A line whose tokens are a sentence over literals and names that are set has only one reading as
a grouped expression, and its postfix text is the post-order of this expression, with a space
between neighbours. -/
theorem toPostfix_of_sentence {store : Store} {line : String} {tokens : List Token}
    (htokens : Token.ofLine line.toList = .ok tokens)
    (hsentence : ∃ e : Expr Operand, e.Grouped ∧ e.tokens id = tokens)
    (hoperands : ∀ a, .operand a ∈ tokens → Numeral.isLiteral a.text = true ∨
      isIdentifier a.word = true ∧ store.contains (String.ofList a.word) = true) :
    ∃ e : Expr Operand, (e.Grouped ∧ e.tokens id = tokens) ∧
      (∀ e' : Expr Operand, e'.Grouped → e'.tokens id = tokens → e' = e) ∧
      toPostfix store line = .ok (String.ofList
        (List.intercalate [' '] (e.postOrder (Operand.spelling store) fun o => [o.char]))) := by
  obtain ⟨e, hgrouped, rfl⟩ := hsentence
  refine ⟨e, ⟨hgrouped, rfl⟩, fun e' hgrouped' h =>
    Expr.eq_of_tokens_eq Function.injective_id hgrouped' hgrouped h, ?_⟩
  obtain ⟨hconvertible, hscan⟩ := convertible_of_tokens htokens
  have hemit : ∀ a ∈ e.operands,
      ∃ entry, a.emit? store = some entry ∧ entry.text = a.spelling store := fun a ha =>
    Operand.exists_emit?_eq_some (hoperands a (Expr.operand_mem_tokens_iff.mpr ⟨a, ha, rfl⟩))
  have hentries : entriesFrom store [] (Token.scan true line.toList) = listing store id e := by
    rw [hscan, Postfix.entriesFrom_tokens hgrouped]
  rw [toPostfix, convert_of_convertible hconvertible, hentries, ← Postfix.map_text_listing hemit]
  rfl

/-- In a product with a sum of a negated name and a literal with a fraction, the name is written as
its value and the literals as they are spelled. -/
theorem toPostfix_of_sentence_product :
    toPostfix (Store.empty.put "x" (-4)) "007 * (-x + 3.50) - x" = .ok "007 4 3.50 + * -4 -" := by
  have htokens : Token.ofLine "007 * (-x + 3.50) - x".toList =
      .ok [.operand ⟨false, ['0', '0', '7']⟩, .symbol (.op .mul), .symbol .leftParen,
        .operand ⟨true, ['x']⟩, .symbol (.op .add), .operand ⟨false, ['3', '.', '5', '0']⟩,
        .symbol .rightParen, .symbol (.op .sub), .operand ⟨false, ['x']⟩] := by
    decide +kernel
  obtain ⟨reading, hreading⟩ : ∃ e : Expr Operand,
      e = .binary .sub (.binary .mul (.operand ⟨false, ['0', '0', '7']⟩)
        (.paren (.binary .add (.operand ⟨true, ['x']⟩) (.operand ⟨false, ['3', '.', '5', '0']⟩))))
        (.operand ⟨false, ['x']⟩) := ⟨_, rfl⟩
  have hgrouped : reading.Grouped := by
    rw [hreading]
    decide
  have hreads : .ok (reading.tokens id) = Token.ofLine "007 * (-x + 3.50) - x".toList := by
    rw [htokens, hreading]
    rfl
  obtain ⟨e, -, hunique, htext⟩ := @toPostfix_of_sentence (Store.empty.put "x" (-4)) _ _ htokens
    ⟨reading, hgrouped, Except.ok.inj (hreads.trans htokens)⟩ (by
      simp only [List.mem_cons, List.not_mem_nil, or_false, reduceCtorEq, false_or,
        Token.operand.injEq, forall_eq_or_imp, forall_eq]
      decide +kernel)
  rw [htext, ← hunique reading hgrouped (Except.ok.inj (hreads.trans htokens)), hreading]
  decide +kernel

/-! ### Names that are not set -/

/-- Without operators, a sentence whose operand is left out has no pieces. -/
theorem piecesOf_eq_nil_of_not_op {store : Store} {line : List Char} {e : Expr Operand}
    {a : Operand} (hgrouped : e.Grouped) (hscan : Token.scan true line = e.tokens id)
    (hnot : ∀ o, Token.symbol (.op o) ∉ e.tokens id) (ha : a ∈ e.operands)
    (hleft : a.isLeftOut store = true) : piecesOf store line = [] := by
  obtain ⟨b, hoperands, hpost⟩ := Expr.exists_operand_of_not_op hnot
  rw [hoperands] at ha
  obtain rfl := List.mem_singleton.mp ha
  have hnone : a.emit? store = none := Option.isNone_iff_eq_none.mp hleft
  rw [piecesOf, hscan, Postfix.entriesFrom_tokens hgrouped, listing, hpost, id, hnone]
  rfl

/-- A run over a sentence with an operand that is left out ends only if there are no operators. -/
theorem not_run_of_isLeftOut {store : Store} {line : List Char} {e : Expr Operand} {a : Operand}
    {o : Operator} (hscan : Token.scan true line = e.tokens id)
    (hextra : ∀ b ∈ e.operands, b.extraPieces = []) (ha : a ∈ e.operands)
    (hleft : a.isLeftOut store = true) (ho : Token.symbol (.op o) ∈ e.tokens id)
    (stack : List Int) : Postfix.run [] (piecesOf store line) ≠ .ok stack := by
  intro hrun
  have hle := length_add_countP_le hrun
  have hnone : (e.tokens id).flatMap Token.extraPieces = [] := by
    refine List.flatMap_eq_nil_iff.mpr fun t ht => ?_
    cases t with
    | symbol s => rfl
    | operand b =>
      obtain ⟨c, hc, rfl⟩ := Expr.operand_mem_tokens_iff.mp ht
      exact hextra c hc
  have hpos : 0 < (e.tokens id).countP (Token.isLeftOut store) :=
    List.countP_pos_iff.mpr ⟨_, Expr.operand_mem_tokens_iff.mpr ⟨a, ha, rfl⟩, hleft⟩
  rw [hscan, hnone, Expr.countP_isOperand_tokens, List.length_nil] at hle
  -- The operands left do not outnumber the operators, so no value is left at the end. But the
  -- operator brings a piece, and a run over pieces leaves a value.
  obtain rfl : stack = [] := List.length_eq_zero_iff.mp (by omega)
  obtain ⟨es, hes, hvalues⟩ := Postfix.run_eq_ok_iff.mp hrun
  obtain rfl : es = [] := by simpa using hvalues
  have hpieces : piecesOf store line = [] := hes.eq_flatMap
  have hperm := piecesOf_perm store line
  rw [hpieces, hscan] at hperm
  have hmem : [o.char] ∈ (e.tokens id).flatMap (Token.pieces store) :=
    List.mem_flatMap.mpr ⟨_, ho, by rw [Token.pieces_op]; exact List.mem_singleton_self _⟩
  exact absurd (hperm.mem_iff.mpr hmem) List.not_mem_nil

/-- A sentence with a name that is not set has no value. Without operators it is refused as an
unknown variable, and with operators as an invalid expression or for a division by zero. -/
theorem evaluate_of_sentence_not_contains {store : Store} {line : String} {tokens : List Token}
    (htokens : Token.ofLine line.toList = .ok tokens)
    (hsentence : ∃ e : Expr Operand, e.Grouped ∧ e.tokens id = tokens)
    (hoperands : ∀ a, .operand a ∈ tokens →
      Numeral.isLiteral a.text = true ∨ isIdentifier a.word = true)
    (hunset : ∃ a, .operand a ∈ tokens ∧ isIdentifier a.word = true ∧
      store.contains (String.ofList a.word) = false) :
    ((∀ o, .symbol (.op o) ∉ tokens) → evaluate store line = .error .unknownVariable) ∧
      ((∃ o, .symbol (.op o) ∈ tokens) → evaluate store line = .error .invalidExpression ∨
        evaluate store line = .error .divisionByZero) := by
  obtain ⟨e, hgrouped, rfl⟩ := hsentence
  obtain ⟨a, ha, hname, hnot⟩ := hunset
  obtain ⟨a, hmem, rfl⟩ := Expr.operand_mem_tokens_iff.mp ha
  have hleft : a.isLeftOut store = true := Operand.isLeftOut_of_not_contains hname hnot
  obtain ⟨hconvertible, hscan⟩ := convertible_of_tokens htokens
  rw [evaluate_of_convertible hconvertible]
  constructor
  · intro hno
    rw [piecesOf_eq_nil_of_not_op hgrouped hscan hno hmem hleft]
    rfl
  · rintro ⟨o, ho⟩
    have hextra : ∀ b ∈ e.operands, b.extraPieces = [] := fun b hb =>
      Operand.extraPieces_of_literal_or_name
        (hoperands b (Expr.operand_mem_tokens_iff.mpr ⟨b, hb, rfl⟩))
    -- Something is missing, so the run does not end, and a run breaks off with one of two errors.
    cases hrun : Postfix.run [] (piecesOf store line.toList) with
    | ok stack => exact absurd hrun (not_run_of_isLeftOut hscan hextra hmem hleft ho stack)
    | error err =>
      rcases Postfix.run_eq_error hrun with rfl | rfl
      · exact Or.inl rfl
      · exact Or.inr rfl

/-- A lone name that is not set is an unknown variable. In a product with a difference it leaves an
operator without its operands. -/
theorem evaluate_of_sentence_not_contains_nested :
    evaluate (Store.empty.put "x" 4) "((-y))" = .error .unknownVariable ∧
      (evaluate (Store.empty.put "x" 4) "x * (3 - y)" = .error .invalidExpression ∨
        evaluate (Store.empty.put "x" 4) "x * (3 - y)" = .error .divisionByZero) := by
  constructor
  · have htokens : Token.ofLine "((-y))".toList =
        .ok [.symbol .leftParen, .symbol .leftParen, .operand ⟨true, ['y']⟩, .symbol .rightParen,
          .symbol .rightParen] := by
      decide +kernel
    refine (evaluate_of_sentence_not_contains htokens ?_ ?_ ?_).1 ?_
    · exact ⟨.paren (.paren (.operand ⟨true, ['y']⟩)), trivial, rfl⟩
    · simp only [List.mem_cons, List.not_mem_nil, or_false, reduceCtorEq, false_or,
        Token.operand.injEq, forall_eq]
      decide
    · exact ⟨⟨true, ['y']⟩, by decide, by decide, by decide⟩
    · simp
  · have htokens : Token.ofLine "x * (3 - y)".toList =
        .ok [.operand ⟨false, ['x']⟩, .symbol (.op .mul), .symbol .leftParen,
          .operand ⟨false, ['3']⟩, .symbol (.op .sub), .operand ⟨false, ['y']⟩,
          .symbol .rightParen] := by
      decide +kernel
    refine (evaluate_of_sentence_not_contains htokens ?_ ?_ ?_).2 ?_
    · exact ⟨.binary .mul (.operand ⟨false, ['x']⟩) (.paren (.binary .sub
        (.operand ⟨false, ['3']⟩) (.operand ⟨false, ['y']⟩))), by decide, rfl⟩
    · simp only [List.mem_cons, List.not_mem_nil, or_false, reduceCtorEq, false_or,
        Token.operand.injEq, forall_eq_or_imp, forall_eq]
      decide
    · exact ⟨⟨false, ['y']⟩, by decide, by decide, by decide⟩
    · exact ⟨.mul, by decide⟩

end Calculator

end DeskCalc
