import DeskCalc.Numeral
import DeskCalc.Operator

/-!
# Postfix entries

A postfix line lists operands and operators, each operator behind its operands, with a space
between neighbours.

## Main definitions

* `Postfix.Entry` — a literal as it was spelled, the value of a name, or an operator
* `Postfix.render` — the text of a list of entries
-/

namespace DeskCalc.Postfix

/-- An entry of a postfix line. -/
inductive Entry
  | literal (spelling : List Char)
  | value (n : Int)
  | op (o : Operator)
  deriving DecidableEq

/-- The text of an entry: a literal as it was spelled, a value in decimal. -/
def Entry.text : Entry → List Char
  | literal spelling => spelling
  | value n => Numeral.render n
  | op o => [o.char]

/-- An operand, that is, no operator. -/
def Entry.isOperand : Entry → Bool
  | op _ => false
  | _ => true

/-- The entries with a space between neighbours. -/
def render (entries : List Entry) : List Char := List.intercalate [' '] (entries.map Entry.text)

end DeskCalc.Postfix
