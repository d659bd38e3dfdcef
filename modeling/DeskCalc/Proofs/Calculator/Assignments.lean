import DeskCalc.Calculator.History
import DeskCalc.Proofs.Piece.Word
import DeskCalc.Proofs.Postfix.Pieces

/-!
# Statements that make an assignment

A statement makes an assignment if it holds an equals sign and is read as one. The name is then an
identifier, and the value that of the right side at that moment: an integer, or the value of another
name. An assignment can be written down as a statement that makes it again, whatever the store
holds.

## Main definitions

* `Assignment.Source` — the value that the right side of a statement has against a store
* `Assignment.statement` — an assignment of an integer, written down

## Main results

* `execute_eq_assigned_iff` — which statements make an assignment
* `get?_carryOut`, `mem_names_carryOut` — what an assignment does to the store
* `execute_statement` — an assignment that is written down is made again
-/

namespace DeskCalc

namespace Assignment

/-- The right side of a statement is an integer `n`, or a name that has the value `n`. -/
def Source (store : Store) (statement : String) (n : Int) : Prop :=
  Numeral.integer? (sides statement.toList).2 = some n ∨
    isIdentifier (sides statement.toList).2 = true ∧
      store.get? (String.ofList (sides statement.toList).2) = some n

/-- An assignment gives an identifier the value of the right side. -/
theorem identifier_source_of_read {store : Store} {statement : String} {a : Assignment}
    (h : read store statement = .ok a) :
    isIdentifier a.name.toList = true ∧ a.name = String.ofList (sides statement.toList).1 ∧
      Source store statement a.value := by
  obtain ⟨hname, heq, hvalue⟩ := read_eq_ok_iff.mp h
  refine ⟨?_, heq, ?_⟩
  · rw [heq, String.toList_ofList]
    exact hname
  · rcases sourceValue_eq_ok_iff.mp hvalue with hinteger | ⟨-, hsource⟩
    · exact Or.inl hinteger
    · exact Or.inr hsource

/-- An assignment is refused in one of two ways. -/
theorem read_eq_error {store : Store} {statement : String} {e : CalcError}
    (h : read store statement = .error e) : e = .invalidIdentifier ∨ e = .unknownVariable := by
  unfold read sourceValue at h
  dsimp only at h
  split at h
  · split at h
    · cases h
    · split at h
      · split at h
        · cases h
        · cases h
          exact Or.inr rfl
      · cases h
        exact Or.inl rfl
  · cases h
    exact Or.inl rfl

/-! ### Assignments written down -/

/-- The assignment of an integer, written down as a statement. -/
def statement (a : Assignment) : String :=
  a.name ++ " = " ++ String.ofList (Numeral.render a.value)

theorem toList_statement (a : Assignment) :
    a.statement.toList = (a.name.toList ++ [' ']) ++ '=' :: ' ' :: Numeral.render a.value := by
  simp [statement]

theorem trimmed_of_integer? {s : List Char} {n : Int} (h : Numeral.integer? s = some n) :
    Text.Trimmed s := by
  obtain ⟨digits, hdigits, hs⟩ := Numeral.integer?_eq_some_iff.mp h
  have hword : Piece.IsWord digits :=
    .of_isPlain (Numeral.isDigits_iff.mp hdigits).1 fun c hc =>
      Piece.isPlain_of_isDigit ((Numeral.isDigits_iff.mp hdigits).2 c hc)
  rcases hs with ⟨rfl, -⟩ | ⟨rfl, -⟩
  · exact hword.trimmed
  · constructor
    · rintro c ⟨⟩
      decide
    · intro c hc
      rw [List.getLast?_cons_of_ne_nil hword.ne_nil] at hc
      exact hword.trimmed.last_not_blank c hc

theorem trimmed_render (n : Int) : Text.Trimmed (Numeral.render n) :=
  trimmed_of_integer? (Numeral.integer?_render n)

theorem sides_statement {a : Assignment} (h : isIdentifier a.name.toList = true) :
    sides a.statement.toList = (a.name.toList, Numeral.render a.value) := by
  have hspace : ∀ c ∈ [' '], Text.isBlank c = true := by
    intro c hc
    rw [List.mem_singleton.mp hc]
    decide
  have hnot : '=' ∉ a.name.toList ++ [' '] := by
    intro hmem
    rcases List.mem_append.mp hmem with hmem | hmem
    · exact not_mem_of_isIdentifier h (by decide) hmem
    · exact absurd hmem (by decide)
  rw [toList_statement, sides_append hnot, Text.trim_append_blanks hspace,
    (Piece.isWord_of_isIdentifier h).trimmed.trim_eq,
    show ' ' :: Numeral.render a.value = [' '] ++ Numeral.render a.value from rfl,
    Text.trim_blanks_append hspace, (trimmed_render a.value).trim_eq]

/-- An assignment that is written down is read back, whatever the store holds. -/
theorem read_statement {a : Assignment} (h : isIdentifier a.name.toList = true) (store : Store) :
    read store a.statement = .ok a := by
  rw [read_eq_ok_iff, sides_statement h, String.ofList_toList]
  exact ⟨h, rfl, sourceValue_eq_ok_iff.mpr (Or.inl (Numeral.integer?_render a.value))⟩

/-- An assignment that is written down begins with a letter and ends with a digit. -/
theorem trimmed_statement {a : Assignment} (h : isIdentifier a.name.toList = true) :
    Text.Trimmed a.statement.toList := by
  have hword := Piece.isWord_of_isIdentifier h
  rw [toList_statement]
  constructor
  · intro c hc
    refine hword.trimmed.head_not_blank c ?_
    rwa [List.append_assoc, List.head?_append, Option.or_of_isSome] at hc
    exact List.isSome_head?.mpr hword.ne_nil
  · intro c hc
    refine (trimmed_render a.value).last_not_blank c ?_
    rwa [List.getLast?_append, List.getLast?_cons_cons,
      List.getLast?_cons_of_ne_nil (Numeral.render_ne_nil a.value), Option.or_of_isSome] at hc
    exact List.getLast?_isSome.mpr (Numeral.render_ne_nil a.value)

end Assignment

/-! ### The store after an assignment -/

namespace Store

/-- An assignment gives its name its value and leaves every other name alone. -/
theorem get?_carryOut (s : Store) (a : Assignment) (name : String) :
    (s.carryOut a).get? name = if name = a.name then some a.value else s.get? name := by
  rw [carryOut]
  split
  · next h => rw [h, get?_put_self]
  · next h => exact get?_put_of_ne h s a.value

theorem mem_names_carryOut {s : Store} {a : Assignment} {name : String} :
    name ∈ (s.carryOut a).names ↔ name = a.name ∨ name ∈ s.names := by
  rw [mem_names_iff, mem_names_iff, carryOut, contains_put, Bool.or_eq_true, decide_eq_true_eq]

theorem size_carryOut (s : Store) (a : Assignment) :
    s.size ≤ (s.carryOut a).size ∧ (s.carryOut a).size ≤ s.size + 1 := by
  rw [carryOut, size_put]
  split <;> omega

end Store

namespace Calculator

/-- A statement makes an assignment if it holds an equals sign and is read as this assignment. -/
theorem execute_eq_assigned_iff {store : Store} {statement : String} {a : Assignment} :
    execute store statement = .ok (.assigned a) ↔
      isAssignment statement = true ∧ Assignment.read store statement = .ok a := by
  cases h : isAssignment statement with
  | true =>
    rw [execute_of_isAssignment h]
    cases Assignment.read store statement <;> simp [Except.map]
  | false =>
    rw [execute_of_not_isAssignment h]
    cases evaluate store statement <;> simp [Except.map]

/-- A statement that makes an assignment gives an identifier the value of its right side. -/
theorem identifier_source_of_execute {store : Store} {statement : String} {a : Assignment}
    (h : execute store statement = .ok (.assigned a)) :
    isIdentifier a.name.toList = true ∧
      a.name = String.ofList (Assignment.sides statement.toList).1 ∧
      Assignment.Source store statement a.value :=
  Assignment.identifier_source_of_read (execute_eq_assigned_iff.mp h).2

/-- An assignment that is written down is made again, whatever the store holds. -/
theorem execute_statement {a : Assignment} (h : isIdentifier a.name.toList = true)
    (store : Store) : execute store a.statement = .ok (.assigned a) := by
  refine execute_eq_assigned_iff.mpr ⟨?_, Assignment.read_statement h store⟩
  rw [isAssignment, Assignment.toList_statement]
  simp

end Calculator

end DeskCalc
