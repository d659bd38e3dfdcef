import DeskCalc.Assignment
import DeskCalc.Log
import DeskCalc.Postfix.Conversion
import DeskCalc.Postfix.Evaluation
import DeskCalc.Text.Quoted

/-!
# The calculator

A statement with an equals sign is an assignment; any other is an arithmetic line, which is
converted to postfix and evaluated. Only an assignment that is accepted changes the store.

## Main definitions

* `Calculator.evaluate` — the value of an arithmetic line
* `Calculator.Effect` — what a statement does: it has a value, or it makes an assignment
* `Calculator.execute` — the effect of a statement, or a refusal
* `Calculator.journal` — the records that executing a statement writes
-/

namespace DeskCalc.Calculator

open Postfix (Conversion convert)

/-- The postfix text of an arithmetic line. -/
def toPostfix (store : Store) (line : String) : Except CalcError String :=
  (convert store line.toList).map fun c => String.ofList c.text

/-- The value of an arithmetic line. -/
def evaluate (store : Store) (line : String) : Except CalcError Int :=
  convert store line.toList >>= fun c => Postfix.evaluate c.text

/-- What a statement does. -/
inductive Effect
  | value (n : Int)
  | assigned (a : Assignment)
  deriving DecidableEq

namespace Effect

/-- The store after an effect. -/
def applyTo (store : Store) : Effect → Store
  | value _ => store
  | assigned a => store.carryOut a

/-- The text that an effect has printed: the value, and nothing for an assignment. -/
def output? : Effect → Option String
  | value n => some (String.ofList (Numeral.render n))
  | assigned _ => none

end Effect

/-- An equals sign makes a statement an assignment. -/
def isAssignment (statement : String) : Bool := statement.toList.contains '='

/-- The effect of a statement. -/
def execute (store : Store) (statement : String) : Except CalcError Effect :=
  if isAssignment statement then (Assignment.read store statement).map .assigned
  else (evaluate store statement).map .value

theorem execute_of_isAssignment {statement : String} (h : isAssignment statement = true)
    (store : Store) :
    execute store statement = (Assignment.read store statement).map .assigned := by
  simp [execute, h]

theorem execute_of_not_isAssignment {statement : String} (h : isAssignment statement = false)
    (store : Store) : execute store statement = (evaluate store statement).map .value := by
  simp [execute, h]

/-! ### Records -/

/-- The record of an assignment. -/
def assignmentRecord (a : Assignment) : Record :=
  ⟨.info, "Assigned " ++ a.name ++ " = " ++ String.ofList (Numeral.render a.value)⟩

/-- The records of a conversion: its tokens, the operands left out, and its text. -/
def conversionRecords (store : Store) (c : Conversion) : List Record :=
  ⟨.debug, "Tokens: " ++ String.ofList (Text.quotedList (c.tokens.map Token.text))⟩ ::
    ((c.dropped store).map fun a =>
      ⟨.debug, "Dropping unresolved token " ++ String.ofList (Text.quoted a.text)⟩) ++
    [⟨.debug, "Postfix: " ++ String.ofList c.text⟩]

/-- The records that executing a statement writes. A refused assignment and a line that is not
converted write none. -/
def journal (store : Store) (statement : String) : List Record :=
  if isAssignment statement then
    match Assignment.read store statement with
    | .ok a => [assignmentRecord a]
    | .error _ => []
  else
    match convert store statement.toList with
    | .ok c => conversionRecords store c
    | .error _ => []

end DeskCalc.Calculator
