import DeskCalc.Postfix.Conversion
import DeskCalc.Proofs.Piece.Word

/-!
# What is written for an operand

A literal is written as it is spelled. A name is never taken for a literal, with or without a minus
sign, so its value is written, or nothing if it has none.

## Main results

* `Operand.emit?_of_isLiteral` — the entry of a literal
* `Operand.emit?_of_isIdentifier` — the entry of a name
-/

namespace DeskCalc

namespace Numeral

theorem exists_digit_of_natural? {s : List Char} {n : Nat} (h : natural? s = some n) :
    ∃ c t, s = c :: t ∧ c.isDigit = true := by
  obtain ⟨hne, hdigits⟩ := isDigits_iff.mp (isDigits_of_natural? h)
  obtain ⟨c, t, rfl⟩ := List.exists_cons_of_ne_nil hne
  exact ⟨c, t, rfl, hdigits c List.mem_cons_self⟩

theorem exists_digit_of_unsigned? {s : List Char} {n : Nat} (h : unsigned? s = some n) :
    ∃ c t, s = c :: t ∧ c.isDigit = true := by
  rcases unsigned?_eq_some_iff.mp h with hs | ⟨whole, fraction, rfl, -, hwhole⟩
  · exact exists_digit_of_natural? hs
  · obtain ⟨c, t, rfl, hc⟩ := exists_digit_of_natural? hwhole
    exact ⟨c, t ++ '.' :: fraction, rfl, hc⟩

theorem exists_digit_of_isLiteral {s : List Char} (h : isLiteral s = true) :
    ∃ c t, (s = c :: t ∨ s = '-' :: c :: t) ∧ c.isDigit = true := by
  obtain ⟨n, hn⟩ := Option.isSome_iff_exists.mp h
  rcases literal?_eq_some_iff.mp hn with ⟨m, hm, -⟩ | ⟨t, m, rfl, hm, -⟩
  · obtain ⟨c, t, rfl, hc⟩ := exists_digit_of_unsigned? hm
    exact ⟨c, t, Or.inl rfl, hc⟩
  · obtain ⟨c, t, rfl, hc⟩ := exists_digit_of_unsigned? hm
    exact ⟨c, t, Or.inr rfl, hc⟩

end Numeral

theorem isDigit_eq_false_of_isAlpha {c : Char} (h : c.isAlpha = true) : c.isDigit = false := by
  by_cases hc : c.isDigit = true
  · have := Text.toNat_of_isDigit hc
    have := Text.toNat_of_isAlpha h
    omega
  · exact Bool.not_eq_true _ ▸ hc

namespace Operand

/-- A name begins with a letter, also behind a minus sign, and so with no digit of any script. -/
theorem isVerbatim_of_isIdentifier {a : Operand} (h : isIdentifier a.word = true) :
    a.isVerbatim = false := by
  obtain ⟨negated, word⟩ := a
  obtain ⟨hne, hletters⟩ := isIdentifier_iff.mp h
  obtain ⟨c, t, rfl⟩ := List.exists_cons_of_ne_nil hne
  have hc : c.isAlpha = true := hletters c List.mem_cons_self
  have hminus : c ≠ '-' := by
    rintro rfl
    cases hc
  have hliteral : Numeral.isLiteral (Operand.text ⟨negated, c :: t⟩) ≠ true := by
    intro hlit
    obtain ⟨d, u, hd, hdigit⟩ := Numeral.exists_digit_of_isLiteral hlit
    -- Wherever the digit stands, it is the minus sign or the letter.
    have heq : d = '-' ∨ d = c := by
      cases negated with
      | false =>
        rcases hd with hd | hd
        · exact Or.inr (List.cons.inj hd).1.symm
        · exact absurd (List.cons.inj hd).1 hminus
      | true =>
        rcases hd with hd | hd
        · exact Or.inl (List.cons.inj hd).1.symm
        · exact Or.inr (List.cons.inj (List.cons.inj hd).2).1.symm
    rcases heq with rfl | rfl
    · cases hdigit
    · rw [isDigit_eq_false_of_isAlpha hc] at hdigit
      cases hdigit
  have hdigit : (Operand.text ⟨negated, c :: t⟩).head?.any Text.isDigit = false := by
    cases negated with
    | false => exact Text.isDigit_eq_false_of_isAlpha hc
    | true => exact Text.isDigit_eq_false_of_lt (c := '-') (by decide)
  rw [isVerbatim, hdigit, Bool.false_or]
  exact Bool.not_eq_true _ ▸ hliteral

theorem emit?_of_isIdentifier {a : Operand} (h : isIdentifier a.word = true) (store : Store) :
    a.emit? store = (a.value? store).map .value := by
  rw [emit?, if_neg (by rw [isVerbatim_of_isIdentifier h]; decide)]

theorem emit?_of_isLiteral {a : Operand} (h : Numeral.isLiteral a.text = true) (store : Store) :
    a.emit? store = some (.literal a.text) := by
  rw [emit?, if_pos (by rw [isVerbatim, h, Bool.or_true])]

theorem emit?_of_not_contains {a : Operand} {store : Store} (h : isIdentifier a.word = true)
    (hunset : store.contains (String.ofList a.word) = false) : a.emit? store = none := by
  have hget : store.get? (String.ofList a.word) = none := by simpa [Store.contains] using hunset
  rw [emit?_of_isIdentifier h, value?, hget]
  rfl

end Operand

end DeskCalc
