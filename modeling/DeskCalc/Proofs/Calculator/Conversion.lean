import DeskCalc.Proofs.Calculator.Lines
import DeskCalc.Proofs.Postfix.Arrangement
import DeskCalc.Proofs.Token.Shape

/-!
# What the conversion of a line keeps

A line is refused, whatever the store holds, if its parentheses are not balanced or if it contains a
doubled `*` or `/`. Any other line is converted, well-formed or not. Its operands come out in their
order, except for the names without a value, and each of its operators comes out once, behind all
the operands that stand before it. The parentheses only guide the conversion: each that is closed
has its partner on the stack, none is left there, and none is written.

## Main definitions

* `Calculator.Faithful` — what the entries of a line have to do with its tokens

## Main results

* `not_mem_render` — no parenthesis is written
* `faithful_of_convertible` — the entries of a line that is converted
* `toPostfix_faithful` — which lines are refused, and what the others come to
-/

namespace DeskCalc.Calculator

open Postfix (Entry Pending brought entriesFrom ownEntries pendingAfterAll render)
open scoped List

/-! ### What is written -/

/-- The text of an entry consists of operator characters, a minus sign among them, and of characters
that are no symbols. -/
theorem operator_or_not_symbol_of_mem_text {store : Store} {t : Token} {e : Entry} {c : Char}
    (ht : t.WellFormed) (he : e ∈ ownEntries store t) (hc : c ∈ e.text) :
    (∃ o : Operator, c = o.char) ∨ Symbol.ofChar? c = none := by
  rcases t with (o | _ | _) | a
  · obtain rfl : e = .op o := List.mem_singleton.mp he
    exact Or.inl ⟨o, List.mem_singleton.mp hc⟩
  · cases he
  · cases he
  · have hemit : a.emit? store = some e := Option.mem_toList.mp he
    rw [Operand.emit?] at hemit
    split at hemit
    · -- A literal is a word, perhaps behind a minus sign.
      cases hemit
      have hword : c = '-' ∨ c ∈ a.word := by
        rw [Entry.text, Operand.text] at hc
        split at hc
        · exact List.mem_cons.mp hc
        · exact Or.inr hc
      exact hword.imp (fun hminus => ⟨.sub, hminus⟩) (ht.1.not_symbol c)
    · obtain ⟨n, -, rfl⟩ := Option.map_eq_some_iff.mp hemit
      exact (Numeral.eq_minus_or_isDigit_of_mem_render hc).imp (fun hminus => ⟨.sub, hminus⟩)
        fun hdigit => Symbol.ofChar?_eq_none_of_class hdigit Symbol.isDigit_char

/-- No parenthesis is written for a line. -/
theorem not_mem_render {x : Char} (hx : x = '(' ∨ x = ')') (store : Store) (line : List Char) :
    x ∉ render (entriesFrom store [] (Token.scan true line)) := by
  intro hmem
  rcases Postfix.eq_space_or_of_mem_render hmem with rfl | ⟨e, he, hmem⟩
  · rcases hx with hx | hx <;> cases hx
  · -- The entry is one that a token of the line brings.
    have hperm := Postfix.entriesFrom_perm store [] (Token.scan true line)
    rw [Postfix.waiting_nil, List.nil_append] at hperm
    obtain ⟨t, ht, he⟩ := List.mem_flatMap.mp (hperm.mem_iff.mp he)
    rcases operator_or_not_symbol_of_mem_text (Token.wellFormed_of_mem_scan ht) he hmem with
      ⟨o, rfl⟩ | hnone
    · cases o <;> rcases hx with hx | hx <;> cases hx
    · rcases hx with rfl | rfl <;> cases hnone

/-! ### The entries of a line -/

/-- What the entries of a line have to do with its tokens. The operands are those of the line in
their order, without the names that have no value. The entries are those that the tokens bring, each
of them once, and whatever stands before an operand comes from a token before its own; so an
operator stands behind all the operands before it. No parenthesis is written, each that is closed
has its partner on the stack, and none is left there. -/
structure Faithful (store : Store) (tokens : List Token) (entries : List Entry) : Prop where
  operands_eq : entries.filter Entry.isOperand =
    (tokens.filterMap Token.operand?).filterMap fun a => a.emit? store
  ordered : ∃ placed, placed.map Prod.fst = entries ∧ placed ~ brought store 0 tokens ∧
    Postfix.Ordered placed
  no_paren : '(' ∉ render entries ∧ ')' ∉ render entries
  opened : ∀ before behind, tokens = before ++ .symbol .rightParen :: behind →
    Pending.leftParen ∈ pendingAfterAll before
  closed : Pending.leftParen ∉ pendingAfterAll tokens

/-- The entries of a line that is converted are faithful to its tokens. -/
theorem faithful_of_convertible {line : List Char} (h : Convertible line) (store : Store) :
    Faithful store (Token.scan true line) (entriesFrom store [] (Token.scan true line)) := by
  have hnesting : Token.nestingAfter? 0 (Token.scan true line) = some 0 := by
    rw [Token.nestingAfter?_scan]
    exact isBalanced_iff.mp h.1
  refine ⟨Postfix.filter_isOperand_entriesFrom store [] _, ?_,
    ⟨not_mem_render (Or.inl rfl) store line, not_mem_render (Or.inr rfl) store line⟩,
    fun before behind hsplit => ?_, Postfix.leftParen_not_mem_pendingAfterAll hnesting⟩
  · have hempty : ∀ p ∈ ([] : List (Pending × Nat)), p.2 < 0 := fun p hp => by cases hp
    exact Postfix.exists_ordered store hempty (Token.scan true line)
  · rw [hsplit] at hnesting
    exact Postfix.leftParen_mem_pendingAfterAll hnesting

/-- Unbalanced parentheses and a doubled `*` or `/` are refused, whatever the store holds, and
nothing else is. Any other line comes to entries that are faithful to its tokens, with a space
between neighbours. -/
theorem toPostfix_faithful (store : Store) (line : String) :
    (∀ e, toPostfix store line = .error e ↔
        (isBalanced line.toList = false ∨ ['*', '*'] <:+: line.toList ∨
          ['/', '/'] <:+: line.toList) ∧ e = .invalidExpression) ∧
      (Convertible line.toList →
        ∃ tokens entries, Token.ofLine line.toList = .ok tokens ∧
          toPostfix store line = .ok (String.ofList (render entries)) ∧
          Faithful store tokens entries) := by
  refine ⟨fun e => ?_, fun h => ?_⟩
  · rw [← @Postfix.convert_eq_error_iff store, toPostfix]
    cases Postfix.convert store line.toList <;> simp [Except.map]
  · refine ⟨_, _, Token.ofLine_eq_ok_iff.mpr ⟨h.2, rfl⟩, ?_, faithful_of_convertible h store⟩
    rw [toPostfix, convert_of_convertible h]
    rfl

/-- A name without a value is left out, and the operator behind it is still written once. -/
theorem toPostfix_faithful_unset :
    Convertible "(1 + u) * -x".toList ∧
      ∃ tokens entries, Token.ofLine "(1 + u) * -x".toList = .ok tokens ∧
        String.ofList (render entries) = "1 + -4 *" ∧
        Faithful (Store.empty.put "x" 4) tokens entries := by
  have hconvertible : Convertible "(1 + u) * -x".toList := by
    exact ⟨by decide +kernel, by decide +kernel, by decide +kernel⟩
  have htext : (toPostfix (Store.empty.put "x" 4) "(1 + u) * -x").toOption = some "1 + -4 *" := by
    decide +kernel
  obtain ⟨tokens, entries, htokens, hline, hfaithful⟩ :=
    (toPostfix_faithful (Store.empty.put "x" 4) "(1 + u) * -x").2 hconvertible
  rw [hline] at htext
  exact ⟨hconvertible, tokens, entries, htokens, Option.some.inj htext, hfaithful⟩

end DeskCalc.Calculator
