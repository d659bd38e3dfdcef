import DeskCalc.Numeral
import DeskCalc.Operator

/-!
# The value of a postfix line

A postfix line is cut at its spaces. A literal pushes the integer that its integer digits spell; an
operator takes two values from the stack, the right operand first, and pushes the result. At the end
exactly one value is left.

## Main definitions

* `Postfix.apply` — the stack after one piece, or a refusal
* `Postfix.run` — the stack after a list of pieces
* `Postfix.evaluate` — the value of a postfix line

## Main results

* `run_append` — a run goes on where the run before it ended
-/

namespace DeskCalc.Postfix

/-- The operator that a piece spells. -/
def operator? : List Char → Option Operator
  | [c] => Operator.ofChar? c
  | _ => none

/-- The stack after one piece. Anything but a literal needs two values and has to be an operator. -/
def apply (stack : List Int) (piece : List Char) : Except CalcError (List Int) :=
  match Numeral.literal? piece with
  | some n => .ok (n :: stack)
  | none =>
    match operator? piece, stack with
    | some o, right :: left :: rest => (o.apply left right).map (· :: rest)
    | _, _ => .error .invalidExpression

/-- The stack after a list of pieces. -/
def run (stack : List Int) (pieces : List (List Char)) : Except CalcError (List Int) :=
  pieces.foldlM apply stack

/-- The pieces of a postfix line: what stands between its spaces. -/
def piecesOf (text : List Char) : List (List Char) :=
  (text.splitOn ' ').filter fun piece => !piece.isEmpty

/-- The single value that a finished run leaves. -/
def result : List Int → Except CalcError Int
  | [n] => .ok n
  | _ => .error .unknownVariable

/-- The value of a postfix line. -/
def evaluate (text : List Char) : Except CalcError Int :=
  run [] (piecesOf text) >>= result

@[simp] theorem run_nil (stack : List Int) : run stack [] = .ok stack := rfl

@[simp] theorem run_cons (stack : List Int) (piece : List Char) (pieces : List (List Char)) :
    run stack (piece :: pieces) = apply stack piece >>= fun s => run s pieces := rfl

/-- A run goes on where the run before it ended. -/
theorem run_append (stack : List Int) (pieces more : List (List Char)) :
    run stack (pieces ++ more) = run stack pieces >>= fun s => run s more := by
  simp [run]

end DeskCalc.Postfix
