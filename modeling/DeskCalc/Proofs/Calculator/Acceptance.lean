import DeskCalc.Proofs.Calculator.Lines
import DeskCalc.Proofs.Postfix.Arrangement
import DeskCalc.Proofs.Token.Counting

/-!
# Lines that have a value

The evaluation does no checking of its own, so a line has a value as soon as its pieces can be run
down to one integer. For this the literals among them have to outnumber the operators by one. Since
the tokens of the line cannot bring that many literals unless operands stand next to each other or
hold spaces, a line where neither happens has a value only if it is a sentence.

## Main results

* `length_add_countP_le` — how many values the tokens of a line can leave
* `countP_isOperator_lt` — the operands of a line with a value outnumber its operators
* `countP_isLeftOut_le` — operands are left out only in exchange for extra ones
* `exists_grouped_of_evaluate` — without juxtaposed operands only sentences have a value
-/

namespace DeskCalc.Calculator

open Postfix (Entry entriesFrom ownEntries)
open scoped List

/-- The pieces of a line are those that its tokens bring. -/
theorem piecesOf_perm (store : Store) (line : List Char) :
    piecesOf store line ~ (Token.scan true line).flatMap (Token.pieces store) := by
  have hentries := Postfix.entriesFrom_perm store [] (Token.scan true line)
  rw [Postfix.waiting_nil, List.nil_append] at hentries
  have hpieces := hentries.flatMap_right Entry.pieces
  rwa [List.flatMap_assoc] at hpieces

/-- What a run over the pieces of a line leaves is bounded by its operands without those left out
and by the extra pieces, less the operators. -/
theorem length_add_countP_le {store : Store} {line : List Char} {stack : List Int}
    (h : Postfix.run [] (piecesOf store line) = .ok stack) :
    stack.length + (Token.scan true line).countP Token.isOperator +
        (Token.scan true line).countP (Token.isLeftOut store) ≤
      (Token.scan true line).countP Token.isOperand +
        ((Token.scan true line).flatMap Token.extraPieces).length := by
  have hperm := piecesOf_perm store line
  have hrun := Postfix.length_run h
  rw [hperm.countP_eq, hperm.countP_eq, List.length_nil] at hrun
  have hoperators := Token.countP_isOperator_le store (Token.scan true line)
  have hliterals := Token.countP_isLiteral_le store (Token.scan true line)
  omega

/-- The operands of a line with a value outnumber its operators, even without those left out, if the
extra pieces are counted as well. -/
theorem countP_isOperator_lt {store : Store} {line : String} {v : Int}
    (h : evaluate store line = .ok v) :
    (Token.scan true line.toList).countP Token.isOperator +
        (Token.scan true line.toList).countP (Token.isLeftOut store) <
      (Token.scan true line.toList).countP Token.isOperand +
        ((Token.scan true line.toList).flatMap Token.extraPieces).length := by
  have hle := length_add_countP_le (evaluate_eq_ok_iff.mp h).2
  rw [List.length_singleton] at hle
  omega

/-- A line with a value begins with an operand, and as many operands as are left out are made up for
by juxtaposed operands and by extra pieces. -/
theorem countP_isLeftOut_le {store : Store} {line : String} {v : Int}
    (h : evaluate store line = .ok v) :
    (Token.scan true line.toList).countP (Token.isLeftOut store) ≤
      Token.juxtapositions (Token.scan true line.toList) +
        ((Token.scan true line.toList).flatMap Token.extraPieces).length := by
  have hlt := countP_isOperator_lt h
  have hle := Token.countP_isOperand_le (Token.scan true line.toList)
  omega

/-- A verbatim operand without spaces is a single piece. -/
theorem piecesOf_text_eq_singleton {a : Operand}
    (hspace : a.text.head?.any Text.isDigit = true → ' ' ∉ a.text) (h : a.isVerbatim = true) :
    Postfix.piecesOf a.text = [a.text] := by
  rcases Bool.or_eq_true_iff.mp h with hdigit | hliteral
  · refine Postfix.piecesOf_eq_singleton (fun hnil => ?_) (hspace hdigit)
    rw [hnil] at hdigit
    cases hdigit
  · obtain ⟨hne, hspace⟩ := Numeral.space_not_mem_of_isLiteral hliteral
    exact Postfix.piecesOf_eq_singleton hne hspace

/-- Only an operand that holds a space brings extra pieces. -/
theorem extraPieces_eq_nil {a : Operand}
    (hspace : a.text.head?.any Text.isDigit = true → ' ' ∉ a.text) : a.extraPieces = [] := by
  rw [Operand.extraPieces]
  split
  · next hverbatim =>
    rw [piecesOf_text_eq_singleton hspace hverbatim]
    rfl
  · rfl

theorem isDigit_operator (o : Operator) : Text.isDigit o.char = false := by
  cases o <;> exact Text.isDigit_eq_false_of_lt (by decide)

/-- In a line with a value, an operand that is not left out is a literal or a name that is set. -/
theorem isLiteral_or_contains {store : Store} {line : String} {v : Int} {a : Operand}
    (hspace : a.text.head?.any Text.isDigit = true → ' ' ∉ a.text)
    (h : evaluate store line = .ok v) (ha : .operand a ∈ Token.scan true line.toList)
    (hleft : a.isLeftOut store = false) :
    Numeral.isLiteral a.text = true ∨ store.contains (String.ofList a.word) = true := by
  by_cases hverbatim : a.isVerbatim = true
  · left
    have hpieces : (Token.operand a).pieces store = [a.text] := by
      rw [Token.pieces, Postfix.ownEntries, Operand.emit?, if_pos hverbatim, Option.toList_some,
        List.flatMap_singleton]
      exact piecesOf_text_eq_singleton hspace hverbatim
    have hmem : a.text ∈ piecesOf store line.toList := by
      refine (piecesOf_perm store line.toList).mem_iff.mpr (List.mem_flatMap.mpr ⟨_, ha, ?_⟩)
      rw [hpieces]
      exact List.mem_singleton_self _
    rcases Postfix.literal_or_operator_of_run (evaluate_eq_ok_iff.mp h).2 hmem with hlit | ⟨o, ho⟩
    · exact hlit
    · -- An operator is neither a literal nor does it begin with a digit.
      rw [Operand.isVerbatim, ho, Token.isLiteral_operator, List.head?_cons, Option.any_some,
        isDigit_operator] at hverbatim
      cases hverbatim
  · right
    rw [Operand.isLeftOut, Operand.emit?, if_neg hverbatim, Operand.value?] at hleft
    rw [Store.contains]
    cases hget : store.get? (String.ofList a.word) with
    | none =>
      rw [hget] at hleft
      cases hleft
    | some n => rfl

/-- Where no operand begins right behind another, and none that begins with a digit holds a space,
only a sentence has a value, and each of its operands is a literal or a name that is set. -/
theorem exists_grouped_of_evaluate {store : Store} {line : String} {tokens : List Token} {v : Int}
    (htokens : Token.ofLine line.toList = .ok tokens)
    (hspace : ∀ t ∈ tokens, t.text.head?.any Text.isDigit = true → ' ' ∉ t.text)
    (hjuxt : tokens.IsChain fun t u => ¬ (t.endsOperand = true ∧ u.beginsOperand = true))
    (h : evaluate store line = .ok v) :
    (∃ e : Expr Operand, e.Grouped ∧ e.tokens id = tokens) ∧
      ∀ a, .operand a ∈ tokens →
        Numeral.isLiteral a.text = true ∨ store.contains (String.ofList a.word) = true := by
  obtain ⟨-, rfl⟩ := Token.ofLine_eq_ok_iff.mp htokens
  have hnone := Token.juxtapositions_eq_zero_iff.mpr hjuxt
  have hextra : (Token.scan true line.toList).flatMap Token.extraPieces = [] := by
    refine List.flatMap_eq_nil_iff.mpr fun t ht => ?_
    cases t with
    | symbol s => rfl
    | operand a => exact extraPieces_eq_nil (hspace _ ht)
  have hlt := countP_isOperator_lt h
  have hleft := countP_isLeftOut_le h
  rw [hnone, hextra, List.length_nil] at hleft
  rw [hextra, List.length_nil] at hlt
  constructor
  · -- Nothing is left out, so the operands outnumber the operators: the tokens alternate.
    have halternates : Token.Alternates true (Token.scan true line.toList) := by
      refine Token.alternates_of_countP_le hnone (fun hdue => absurd hdue (by decide)) ?_
      rw [if_pos rfl]
      omega
    have hnesting : Token.nestingAfter? 0 (Token.scan true line.toList) = some 0 := by
      rw [Token.nestingAfter?_scan]
      exact isBalanced_iff.mp (evaluate_eq_ok_iff.mp h).1.1
    exact Token.exists_grouped_of_alternates halternates hnesting
  · intro a ha
    have hnot := List.countP_eq_zero.mp (Nat.le_zero.mp hleft) _ ha
    exact isLiteral_or_contains (hspace _ ha) h ha (Bool.not_eq_true _ ▸ hnot)

/-- A line with a folded sign, a name and a parenthesis is a sentence over its three operands. -/
theorem exists_grouped_of_evaluate_product :
    evaluate (Store.empty.put "x" 4) "-3 * (x + 2)" = .ok (-18) ∧
      (∃ e : Expr Operand, e.Grouped ∧ e.tokens id =
        [.operand ⟨true, ['3']⟩, .symbol (.op .mul), .symbol .leftParen, .operand ⟨false, ['x']⟩,
          .symbol (.op .add), .operand ⟨false, ['2']⟩, .symbol .rightParen]) := by
  have h : evaluate (Store.empty.put "x" 4) "-3 * (x + 2)" = .ok (-18) := by decide +kernel
  exact ⟨h, (exists_grouped_of_evaluate (by decide +kernel) (by decide +kernel)
    (by decide +kernel) h).1⟩

end DeskCalc.Calculator
