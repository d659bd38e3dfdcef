import DeskCalc.Calculator

/-!
# Histories of calls

A calculator is used by a sequence of calls: a statement is executed, or an arithmetic line is
evaluated. Each call meets the store that the calls before it have left.

## Main definitions

* `Calculator.Call` — one use of the calculator
* `Calculator.Call.outcome` — its effect or its refusal
* `Calculator.storeAfter` — the store after a history of calls
-/

namespace DeskCalc.Calculator

/-- One use of the calculator. -/
inductive Call
  | execute (statement : String)
  | evaluate (line : String)
  deriving DecidableEq

namespace Call

/-- The effect of a call, or its refusal. -/
def outcome (store : Store) : Call → Except CalcError Effect
  | execute statement => Calculator.execute store statement
  | evaluate line => (Calculator.evaluate store line).map .value

/-- The store after a call. A refusal leaves it as it was. -/
def storeAfter (store : Store) (c : Call) : Store :=
  match c.outcome store with
  | .ok effect => effect.applyTo store
  | .error _ => store

/-- The assignment that a call makes. -/
def assignment? (store : Store) (c : Call) : Option Assignment :=
  match c.outcome store with
  | .ok (.assigned a) => some a
  | _ => none

/-- A call changes the store only by the assignment that it makes. -/
theorem storeAfter_eq (store : Store) (c : Call) :
    c.storeAfter store = ((c.assignment? store).map store.carryOut).getD store := by
  unfold storeAfter assignment?
  split <;> simp_all [Effect.applyTo]
  split <;> simp_all

end Call

/-- The store after a history of calls. -/
def storeAfter (store : Store) (calls : List Call) : Store :=
  calls.foldl (fun s c => c.storeAfter s) store

@[simp] theorem storeAfter_nil (store : Store) : storeAfter store [] = store := rfl

@[simp] theorem storeAfter_append (store : Store) (calls more : List Call) :
    storeAfter store (calls ++ more) = storeAfter (storeAfter store calls) more := by
  simp [storeAfter]

end DeskCalc.Calculator
