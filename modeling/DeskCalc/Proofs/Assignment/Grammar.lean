import DeskCalc.Proofs.Calculator.Assignments
import DeskCalc.Proofs.Postfix.Operands
import Mathlib.Data.List.TakeWhile

/-!
# The grammar of assignments

A statement makes an assignment exactly if its left side is a name and its right side denotes a
value: it spells an integer, or it is a name that is set. The checks are made in a fixed order, so
each way of missing the grammar has its own refusal: a name that is not set is reported only where
both sides are well-formed. The store changes in one step, at the very end, and under one name.

## Main definitions

* `Assignment.HasSides` — the texts before and behind the first equals sign, trimmed
* `Assignment.Denotes` — the value of a right side
* `Assignment.storeAfter` — the store after a statement

## Main results

* `sides_eq_iff` — the two sides of a statement
* `read_eq_error_iff` — which statements are refused, and how
* `read_of_hasSides` — which statements make an assignment, how all others are refused, and what
  happens to the store
-/

namespace DeskCalc

theorem Numeral.SpellsInteger.not_isIdentifier {s : List Char} {n : Int} (h : SpellsInteger s n) :
    isIdentifier s = false := by
  refine Bool.eq_false_iff.mpr fun hname => ?_
  obtain ⟨-, hletters⟩ := isIdentifier_iff.mp hname
  obtain ⟨digits, hdigits, ⟨rfl, -⟩ | ⟨rfl, -⟩⟩ := h
  · obtain ⟨hne, hall⟩ := Numeral.isDigits_iff.mp hdigits
    obtain ⟨c, t, rfl⟩ := List.exists_cons_of_ne_nil hne
    have hdigit := hall c List.mem_cons_self
    rw [isDigit_eq_false_of_isAlpha (hletters c List.mem_cons_self)] at hdigit
    cases hdigit
  · have hminus := hletters '-' List.mem_cons_self
    cases hminus

namespace Assignment

/-! ### The two sides -/

/-- The two sides of a statement are the trimmed texts before and behind its first equals sign.
Without an equals sign the whole statement is the left side, and the right side is empty. -/
def HasSides (statement name source : List Char) : Prop :=
  (∃ left right, statement = left ++ '=' :: right ∧ '=' ∉ left ∧ name = Text.trim left ∧
      source = Text.trim right) ∨
    '=' ∉ statement ∧ name = Text.trim statement ∧ source = []

theorem sides_of_not_mem {statement : List Char} (h : '=' ∉ statement) :
    sides statement = (Text.trim statement, []) := by
  have hall : ∀ c ∈ statement, (c != '=') = true := by
    intro c hc
    simpa using fun heq : c = '=' => h (heq ▸ hc)
  rw [sides, List.takeWhile_eq_self_iff.mpr hall, List.dropWhile_eq_nil_iff.mpr hall]
  rfl

/-- A statement is read with the two sides that it has. -/
theorem sides_eq_iff {statement name source : List Char} :
    sides statement = (name, source) ↔ HasSides statement name source := by
  constructor
  · intro h
    by_cases hmem : '=' ∈ statement
    · obtain ⟨left, right, rfl, hleft⟩ := List.eq_append_cons_of_mem hmem
      rw [sides_append hleft] at h
      cases h
      exact Or.inl ⟨left, right, rfl, hleft, rfl, rfl⟩
    · rw [sides_of_not_mem hmem] at h
      cases h
      exact Or.inr ⟨hmem, rfl, rfl⟩
  · rintro (⟨left, right, rfl, hleft, rfl, rfl⟩ | ⟨hmem, rfl, rfl⟩)
    · exact sides_append hleft
    · exact sides_of_not_mem hmem

/-! ### What the right side denotes -/

/-- The right side of an assignment denotes the integer that it spells, or the value of a name. -/
def Denotes (store : Store) (source : List Char) (n : Int) : Prop :=
  Numeral.SpellsInteger source n ∨
    isIdentifier source = true ∧ store.get? (String.ofList source) = some n

variable {store : Store} {source : List Char}

theorem integer?_eq_none_of_isIdentifier (h : isIdentifier source = true) :
    Numeral.integer? source = none := by
  refine Option.eq_none_iff_forall_not_mem.mpr fun n hn => ?_
  rw [(Numeral.integer?_eq_some_iff.mp hn).not_isIdentifier] at h
  cases h

theorem sourceValue_eq_ok_iff_denotes {n : Int} :
    sourceValue store source = .ok n ↔ Denotes store source n := by
  rw [sourceValue_eq_ok_iff, Numeral.integer?_eq_some_iff, Denotes]
  exact or_congr Iff.rfl
    ⟨And.right, fun h => ⟨integer?_eq_none_of_isIdentifier h.1, h⟩⟩

/-- A right side is refused as a name that is not set, or because it is neither an integer nor a
name. -/
theorem sourceValue_eq_error_iff {e : CalcError} :
    sourceValue store source = .error e ↔
      isIdentifier source = true ∧ store.get? (String.ofList source) = none ∧
          e = .unknownVariable ∨
        (¬ ∃ n, Numeral.SpellsInteger source n) ∧ isIdentifier source = false ∧
          e = .invalidIdentifier := by
  cases hinteger : Numeral.integer? source with
  | some n =>
    -- An integer has a value, and it is no name, so it is refused in neither way.
    have hspells := Numeral.integer?_eq_some_iff.mp hinteger
    have hvalue : sourceValue store source = .ok n :=
      sourceValue_eq_ok_iff_denotes.mpr (Or.inl hspells)
    rw [hvalue, hspells.not_isIdentifier]
    simp only [reduceCtorEq, Bool.false_eq_true, false_and, true_and, false_or, false_iff]
    exact fun h => h.1 ⟨n, hspells⟩
  | none =>
    have hspells : ¬ ∃ n, Numeral.SpellsInteger source n := by
      rintro ⟨n, hn⟩
      rw [Numeral.integer?_eq_some_iff.mpr hn] at hinteger
      cases hinteger
    rw [sourceValue, hinteger]
    cases hname : isIdentifier source with
    | true => cases hget : store.get? (String.ofList source) <;> simp [eq_comm]
    | false => simp [hspells, eq_comm]

/-! ### Statements -/

theorem unknownVariable_ne_invalidIdentifier :
    CalcError.unknownVariable ≠ .invalidIdentifier := by
  decide

variable {statement : String} {name : List Char}

/-- A statement is refused for its left side if this is no name, and otherwise for its right
side. -/
theorem read_eq_error_iff {e : CalcError} :
    read store statement = .error e ↔
      isIdentifier (sides statement.toList).1 = true ∧
          sourceValue store (sides statement.toList).2 = .error e ∨
        isIdentifier (sides statement.toList).1 = false ∧ e = .invalidIdentifier := by
  unfold read
  dsimp only
  cases hname : isIdentifier (sides statement.toList).1 with
  | true => cases sourceValue store (sides statement.toList).2 <;> simp [Except.map]
  | false => simp [eq_comm]

section Outcomes

variable (h : HasSides statement.toList name source)
include h

theorem read_eq_ok_iff_denotes {a : Assignment} :
    read store statement = .ok a ↔
      isIdentifier name = true ∧ a.name = String.ofList name ∧ Denotes store source a.value := by
  rw [read_eq_ok_iff, sides_eq_iff.mpr h, sourceValue_eq_ok_iff_denotes]

/-- A name that is not set is reported only if both sides are names. -/
theorem read_eq_unknownVariable_iff :
    read store statement = .error .unknownVariable ↔
      isIdentifier name = true ∧ isIdentifier source = true ∧
        store.get? (String.ofList source) = none := by
  rw [read_eq_error_iff, sides_eq_iff.mpr h, sourceValue_eq_error_iff]
  simp [unknownVariable_ne_invalidIdentifier]

/-- An invalid identifier is reported if the left side is no name, or if the right side is neither
an integer nor a name. -/
theorem read_eq_invalidIdentifier_iff :
    read store statement = .error .invalidIdentifier ↔
      isIdentifier name = false ∨
        (¬ ∃ n, Numeral.SpellsInteger source n) ∧ isIdentifier source = false := by
  rw [read_eq_error_iff, sides_eq_iff.mpr h, sourceValue_eq_error_iff]
  cases isIdentifier name <;> simp [unknownVariable_ne_invalidIdentifier.symm]

end Outcomes

/-! ### The store -/

/-- The store after a statement has been read as an assignment. A refusal leaves it as it was. -/
def storeAfter (store : Store) (statement : String) : Store :=
  match read store statement with
  | .ok a => store.carryOut a
  | .error _ => store

theorem storeAfter_of_ok {a : Assignment} (h : read store statement = .ok a) :
    storeAfter store statement = store.carryOut a := by
  rw [storeAfter, h]

theorem storeAfter_of_error {e : CalcError} (h : read store statement = .error e) :
    storeAfter store statement = store := by
  rw [storeAfter, h]

/-- The grammar of assignments. A statement gives the value that its right side denotes to the name
on its left side, and changes nothing else; the right side may be this very name. Where both sides
are names and the right one is not set, the statement is refused as a name that is not set, and in
every other case that misses the grammar as an invalid identifier; the store stays as it is then. -/
theorem read_of_hasSides (h : HasSides statement.toList name source) (store : Store) :
    (∀ a, read store statement = .ok a ↔
        isIdentifier name = true ∧ a.name = String.ofList name ∧ Denotes store source a.value) ∧
      (read store statement = .error .unknownVariable ↔
        isIdentifier name = true ∧ isIdentifier source = true ∧
          store.get? (String.ofList source) = none) ∧
      (read store statement = .error .invalidIdentifier ↔
        isIdentifier name = false ∨
          (¬ ∃ n, Numeral.SpellsInteger source n) ∧ isIdentifier source = false) ∧
      (∀ e, read store statement = .error e → e = .invalidIdentifier ∨ e = .unknownVariable) ∧
      (∀ a, read store statement = .ok a → ∀ x, (storeAfter store statement).get? x =
        if x = String.ofList name then some a.value else store.get? x) ∧
      (∀ e, read store statement = .error e → storeAfter store statement = store) := by
  refine ⟨fun a => read_eq_ok_iff_denotes h, read_eq_unknownVariable_iff h,
    read_eq_invalidIdentifier_iff h, fun e => read_eq_error, fun a ha x => ?_,
    fun e => storeAfter_of_error⟩
  obtain ⟨-, hname, -⟩ := (read_eq_ok_iff_denotes h).mp ha
  rw [storeAfter_of_ok ha, Store.get?_carryOut, hname]

/-- A name may be set to its own value. Of two equals signs the second belongs to the right side,
which then denotes nothing. -/
theorem read_of_hasSides_self :
    read (Store.empty.put "x" 7) " x = x " = .ok ⟨"x", 7⟩ ∧
      read (Store.empty.put "x" 7) "y=x=1" = .error .invalidIdentifier := by
  have hself : HasSides " x = x ".toList ['x'] ['x'] :=
    Or.inl ⟨[' ', 'x', ' '], [' ', 'x', ' '], by decide, by decide, by decide +kernel,
      by decide +kernel⟩
  have htwice : HasSides "y=x=1".toList ['y'] ['x', '=', '1'] :=
    Or.inl ⟨['y'], ['x', '=', '1'], by decide, by decide, by decide +kernel, by decide +kernel⟩
  have hnone : ¬ ∃ n, Numeral.SpellsInteger ['x', '=', '1'] n := by
    rintro ⟨n, hn⟩
    cases Numeral.integer?_eq_some_iff.mpr hn
  constructor
  · exact ((read_of_hasSides hself (Store.empty.put "x" 7)).1 ⟨"x", 7⟩).mpr
      ⟨by decide, by decide, Or.inr ⟨by decide, by decide⟩⟩
  · exact (read_of_hasSides htwice (Store.empty.put "x" 7)).2.2.1.mpr (Or.inr ⟨hnone, by decide⟩)

end Assignment

end DeskCalc
