/-!
# Refusals

A statement that the calculator cannot carry out is refused with an error of one of four kinds. A
fifth kind, the general one, stands for all of them: whoever handles it handles every refusal.

## Main definitions

* `ErrorKind`, `CalcError` — the kinds, and an error with an optional note in its own words
* `CalcError.message` — the text that the user sees
* `ErrorKind.handles` — which errors a handler for a kind receives
-/

namespace DeskCalc

/-- The kinds of refusal; `general` is the kind of which the others are special cases. -/
inductive ErrorKind
  | general
  | invalidExpression
  | unknownVariable
  | invalidIdentifier
  | calculation
  deriving DecidableEq

namespace ErrorKind

/-- Every kind, the general one first. -/
def all : List ErrorKind :=
  [general, invalidExpression, unknownVariable, invalidIdentifier, calculation]

/-- The text shown for an error of the kind that says nothing more precise. -/
def defaultMessage : ErrorKind → String
  | general => "Calculator error"
  | invalidExpression => "Invalid expression"
  | unknownVariable => "Unknown variable"
  | invalidIdentifier => "Invalid identifier"
  | calculation => "Calculation error"

/-- A handler for `handler` receives the errors of its own kind, and a general one receives all. -/
def handles (handler kind : ErrorKind) : Bool :=
  handler == general || handler == kind

end ErrorKind

/-- A refusal: its kind and, where there is more to say, a note. -/
structure CalcError where
  kind : ErrorKind
  note : Option String := none
  deriving DecidableEq

namespace CalcError

/-- Malformed parentheses, a doubled `*` or `/`, or an operator without its two operands. -/
def invalidExpression : CalcError := ⟨.invalidExpression, none⟩

/-- A name without a value, or a line that does not come down to one value. -/
def unknownVariable : CalcError := ⟨.unknownVariable, none⟩

/-- An assignment whose target is no name, or whose source is neither a name nor an integer. -/
def invalidIdentifier : CalcError := ⟨.invalidIdentifier, none⟩

/-- A division whose divisor is zero. -/
def divisionByZero : CalcError := ⟨.calculation, some "Division by zero"⟩

/-- The note, or the default text of the kind if there is no note or an empty one. -/
def message (e : CalcError) : String :=
  match e.note with
  | none => e.kind.defaultMessage
  | some note => if note = "" then e.kind.defaultMessage else note

example : [invalidExpression, unknownVariable, invalidIdentifier, divisionByZero].map message =
    ["Invalid expression", "Unknown variable", "Invalid identifier", "Division by zero"] := rfl

end CalcError

end DeskCalc
