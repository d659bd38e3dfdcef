import DeskCalc.Error
import DeskCalc.Numeral
import DeskCalc.Store
import DeskCalc.Text.Blank

/-!
# Assignments

A statement `name = source` gives a value to a name. The first equals sign separates its two sides,
which are trimmed. The source is an integer or a name that has a value already; the name then gets
that value, and later changes of the source name do not reach it.

## Main definitions

* `Assignment` — a name and the value that it gets
* `Assignment.sides` — the two sides of a statement
* `Assignment.read` — the assignment that a statement makes, or a refusal
* `Store.carryOut` — the store after an assignment

## Main results

* `sides_append` — the first equals sign separates the two sides
* `read_eq_ok_iff` — which statements make an assignment, and which one
-/

namespace DeskCalc

/-- A name and the value that it gets. -/
structure Assignment where
  name : String
  value : Int
  deriving DecidableEq

namespace Assignment

/-- The trimmed texts before and behind the first equals sign. Without an equals sign all stands
before it. -/
def sides (statement : List Char) : List Char × List Char :=
  (Text.trim (statement.takeWhile (· != '=')), Text.trim ((statement.dropWhile (· != '=')).drop 1))

/-- The value of the right side of an assignment: that of an integer or of a name. -/
def sourceValue (store : Store) (source : List Char) : Except CalcError Int :=
  match Numeral.integer? source with
  | some n => .ok n
  | none =>
    if isIdentifier source then
      match store.get? (String.ofList source) with
      | some n => .ok n
      | none => .error .unknownVariable
    else
      .error .invalidIdentifier

/-- The assignment that a statement makes. -/
def read (store : Store) (statement : String) : Except CalcError Assignment :=
  let (name, source) := sides statement.toList
  if isIdentifier name then
    (sourceValue store source).map fun n => ⟨String.ofList name, n⟩
  else
    .error .invalidIdentifier

/-- The first equals sign separates the two sides. -/
theorem sides_append {name source : List Char} (h : '=' ∉ name) :
    sides (name ++ '=' :: source) = (Text.trim name, Text.trim source) := by
  have hname : ∀ c ∈ name, (c != '=') = true := by
    intro c hc
    simpa using fun heq : c = '=' => h (heq ▸ hc)
  simp [sides, List.takeWhile_append_of_pos hname, List.dropWhile_append_of_pos hname]

/-- The right side of an assignment has a value if it is an integer or a name that has one. -/
theorem sourceValue_eq_ok_iff {store : Store} {source : List Char} {n : Int} :
    sourceValue store source = .ok n ↔
      Numeral.integer? source = some n ∨
        Numeral.integer? source = none ∧ isIdentifier source = true ∧
          store.get? (String.ofList source) = some n := by
  unfold sourceValue
  split
  · next m h => simp [h]
  · next h =>
    split
    · next hi =>
      split
      · next m hm => simp [h, hi, hm]
      · next hm => simp [h, hi, hm]
    · next hi => simp [h, hi]

/-- A statement makes an assignment if its left side is a name and its right side has a value. -/
theorem read_eq_ok_iff {store : Store} {statement : String} {a : Assignment} :
    read store statement = .ok a ↔
      isIdentifier (sides statement.toList).1 = true ∧
        a.name = String.ofList (sides statement.toList).1 ∧
        sourceValue store (sides statement.toList).2 = .ok a.value := by
  unfold read
  dsimp only
  split
  · next h =>
    cases hs : sourceValue store (sides statement.toList).2 with
    | error e => simp [Except.map, h]
    | ok n =>
      obtain ⟨name, value⟩ := a
      simp [Except.map, h, eq_comm]
  · next h => simp [h]

end Assignment

/-- The store after an assignment. -/
def Store.carryOut (s : Store) (a : Assignment) : Store := s.put a.name a.value

end DeskCalc
