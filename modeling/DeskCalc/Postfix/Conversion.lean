import DeskCalc.Balance
import DeskCalc.Postfix.Entry
import DeskCalc.Store
import DeskCalc.Text.Digit
import DeskCalc.Token

/-!
# From a line to postfix

Operands are written out as they come. An operator waits on a stack until the operands on its right
have been written, that is, until an operator of no higher precedence or the closing parenthesis
arrives. An operand that begins with a digit, or is a literal, is written as it is spelled; any
other operand is a name, which stands for its value and is left out if it has none.

## Main definitions

* `Postfix.Pending` — what waits on the stack: operators and open parentheses
* `Postfix.released`, `Postfix.pendingAfter` — what a token takes from the stack and what it leaves
* `Operand.emit?` — what is written for an operand
* `Postfix.entriesFrom` — the entries written for the rest of a line
* `Postfix.Conversion`, `Postfix.convert` — tokens and entries of a whole line, or a refusal
-/

namespace DeskCalc

namespace Operand

/-- Operands that are written as they are spelled: those that begin with a digit of any script, and
literals. -/
def isVerbatim (a : Operand) : Bool :=
  a.text.head?.any Text.isDigit || Numeral.isLiteral a.text

/-- The value of an operand as a name: that of its word, negated if it carries a minus sign. -/
def value? (a : Operand) (store : Store) : Option Int :=
  (store.get? (String.ofList a.word)).map fun v => if a.negated then -v else v

/-- What is written for an operand. A name without a value has no entry. -/
def emit? (a : Operand) (store : Store) : Option Postfix.Entry :=
  if a.isVerbatim then some (.literal a.text) else (a.value? store).map .value

end Operand

namespace Postfix

/-- What waits on the stack: an operator for its right operand, or an open parenthesis. -/
inductive Pending
  | op (o : Operator)
  | leftParen
  deriving DecidableEq

namespace Pending

/-- The operator that waits. -/
def operator? : Pending → Option Operator
  | op o => some o
  | leftParen => none

/-- A waiting operator is written before an operator of no higher precedence comes to wait. -/
def yieldsTo (o : Operator) : Pending → Bool
  | op p => decide (o.precedence ≤ p.precedence)
  | leftParen => false

end Pending

/-- The waiting operators that are written when a token arrives. A closing parenthesis releases all
down to the open one, an operator those that yield to it. -/
def released (stack : List Pending) : Token → List Operator
  | .symbol (.op o) => (stack.takeWhile (·.yieldsTo o)).filterMap Pending.operator?
  | .symbol .rightParen => (stack.takeWhile (·.operator?.isSome)).filterMap Pending.operator?
  | .symbol .leftParen => []
  | .operand _ => []

/-- What waits after a token has arrived. -/
def pendingAfter (stack : List Pending) : Token → List Pending
  | .symbol (.op o) => .op o :: stack.dropWhile (·.yieldsTo o)
  | .symbol .rightParen => (stack.dropWhile (·.operator?.isSome)).drop 1
  | .symbol .leftParen => .leftParen :: stack
  | .operand _ => stack

/-- What is written when a token arrives. -/
def written (store : Store) (stack : List Pending) : Token → List Entry
  | .operand a => (a.emit? store).toList
  | .symbol s => (released stack (.symbol s)).map .op

/-- The entries for the rest of a line. At the end all that waits is written, the top first. -/
def entriesFrom (store : Store) : List Pending → List Token → List Entry
  | stack, [] => (stack.filterMap Pending.operator?).map .op
  | stack, t :: tokens => written store stack t ++ entriesFrom store (pendingAfter stack t) tokens

/-- What waits after all the tokens of a line have arrived. -/
def pendingAfterAll (tokens : List Token) : List Pending := tokens.foldl pendingAfter []

@[simp] theorem pendingAfterAll_nil : pendingAfterAll [] = [] := rfl

@[simp] theorem entriesFrom_nil (store : Store) (stack : List Pending) :
    entriesFrom store stack [] = (stack.filterMap Pending.operator?).map .op := rfl

@[simp] theorem entriesFrom_cons (store : Store) (stack : List Pending) (t : Token)
    (tokens : List Token) :
    entriesFrom store stack (t :: tokens) =
      written store stack t ++ entriesFrom store (pendingAfter stack t) tokens := rfl

@[simp] theorem pendingAfter_operand (stack : List Pending) (a : Operand) :
    pendingAfter stack (.operand a) = stack := rfl

/-- A converted line: its tokens and the entries written for them. -/
structure Conversion where
  tokens : List Token
  entries : List Entry

/-- The postfix text of a converted line. -/
def Conversion.text (c : Conversion) : List Char := render c.entries

/-- The operands of a converted line that were left out. -/
def Conversion.dropped (c : Conversion) (store : Store) : List Operand :=
  (c.tokens.filterMap Token.operand?).filter fun a => (a.emit? store).isNone

/-- The conversion of a line. Unbalanced parentheses and a doubled `*` or `/` are refused. -/
def convert (store : Store) (line : List Char) : Except CalcError Conversion :=
  if isBalanced line then
    (Token.ofLine line).map fun tokens => ⟨tokens, entriesFrom store [] tokens⟩
  else
    .error .invalidExpression

/-- Only unbalanced parentheses and a doubled `*` or `/` keep a line from being converted, whatever
the store holds. -/
theorem convert_eq_error_iff {store : Store} {line : List Char} {e : CalcError} :
    convert store line = .error e ↔
      (isBalanced line = false ∨ ['*', '*'] <:+: line ∨ ['/', '/'] <:+: line) ∧
        e = .invalidExpression := by
  unfold convert
  split
  · next h =>
    have htokens := @Token.ofLine_eq_error_iff line e
    cases ht : Token.ofLine line with
    | error err =>
      rw [ht] at htokens
      simpa [Except.map, h] using htokens
    | ok tokens =>
      rw [ht] at htokens
      simpa [Except.map, h] using htokens
  · next h =>
    have hb : isBalanced line = false := by simpa using h
    simp [hb, eq_comm (a := e)]

end Postfix

end DeskCalc
