import DeskCalc.Session

/-!
# The calculator on bare texts

The calculator once more, with the tokens, the stack of waiting operators and the postfix line as
bare texts. Nothing in their types says that a token has a first character, that only operators and
parentheses wait, that two values are on the stack, that a literal spells an integer, or that a name
has a value. A step that needs one of these breaks down where it is missing.

## Main definitions

* `Bare.first`, `Bare.pop`, `Bare.precedence`, `Bare.integer`, `Bare.value` — the steps that may
  break down
* `Bare.arrive`, `Bare.convert` — one token, and the postfix text of a line
* `Bare.apply`, `Bare.evaluate` — one piece, and the value of a postfix text
* `Bare.execute`, `Session.bare` — the effect of a statement, and the engine that carries it out
-/

namespace DeskCalc.Session

namespace Bare

variable {α : Type}

/-- What may be refused, as a step that may also break down. -/
def refusing (x : Except CalcError α) : Except Failure α := x.mapError .refused

/-! ### Steps that may break down -/

/-- The first character of a text. -/
def first : List Char → Except Failure Char
  | [] => .error (.breakdown "a text without a first character")
  | c :: _ => .ok c

/-- The top of a stack, and the stack below it. -/
def pop : List α → Except Failure (α × List α)
  | [] => .error (.breakdown "an empty stack")
  | x :: below => .ok (x, below)

/-- The precedence of the operator that a text spells. -/
def precedence (text : List Char) : Except Failure Nat :=
  match Postfix.operator? text with
  | none => .error (.breakdown ("no operator: " ++ String.ofList text))
  | some o => .ok o.precedence

/-- The integer that a text spells. -/
def integer (text : List Char) : Except Failure Int :=
  match Numeral.integer? text with
  | none => .error (.breakdown ("no integer: " ++ String.ofList text))
  | some n => .ok n

/-- The value under a name. -/
def value (store : Store) (name : List Char) : Except Failure Int :=
  match store.get? (String.ofList name) with
  | none => .error (.breakdown ("no value: " ++ String.ofList name))
  | some n => .ok n

/-! ### From a line to postfix -/

/-- The texts on top of a stack that pass a test, and the stack below them. -/
def release (test : List Char → Except Failure Bool) :
    List (List Char) → Except Failure (List (List Char) × List (List Char))
  | [] => .ok ([], [])
  | top :: below => do
    if ← test top then
      let (released, left) ← release test below
      return (top :: released, left)
    else
      return ([], top :: below)

/-- What waits above an open parenthesis is released before `token` comes to wait, if it binds no
less tightly. Of two differences the one that waits is released as well. -/
def yieldsTo (token top : List Char) : Except Failure Bool :=
  if top = ['('] then .ok false
  else do
    let waiting ← precedence top
    let coming ← precedence token
    return decide (coming ≤ waiting) || (top == ['-'] && token == ['-'])

/-- The value that a token stands for as a name, if the name has one. A minus sign in front of the
name negates it. -/
def resolve (store : Store) (token : List Char) : Except Failure (Option Int) :=
  let negated := token.head? == some '-'
  let name := if negated then token.drop 1 else token
  if store.contains (String.ofList name) then do
    let v ← value store name
    return some (if negated then -v else v)
  else .ok none

/-- What waits, the top first, and what has been written. -/
structure State where
  waiting : List (List Char)
  written : List (List Char)

/-- The state after a token has arrived. -/
def arrive (store : Store) (s : State) (token : List Char) : Except Failure State := do
  let c ← first token
  if Text.isDigit c || Numeral.isLiteral token then
    return { s with written := s.written ++ [token] }
  else if token = ['('] then
    return { s with waiting := token :: s.waiting }
  else if token = [')'] then
    let (released, left) ← release (fun top => .ok (top != ['('])) s.waiting
    if left.isEmpty then
      return ⟨left, s.written ++ released⟩
    else
      let (_, below) ← pop left
      return ⟨below, s.written ++ released⟩
  else if (Postfix.operator? token).isSome then
    let (released, left) ← release (yieldsTo token) s.waiting
    return ⟨token :: left, s.written ++ released⟩
  else
    match ← resolve store token with
    | none => return s
    | some v => return { s with written := s.written ++ [Numeral.render v] }

/-- The postfix text of a line. At the end all that waits is written, whatever it is. -/
def convert (store : Store) (line : List Char) : Except Failure (List Char) :=
  if isBalanced line then do
    let tokens ← refusing (Token.ofLine line)
    let s ← (tokens.map Token.text).foldlM (arrive store) ⟨[], []⟩
    return List.intercalate [' '] (s.written ++ s.waiting)
  else .error (.refused .invalidExpression)

/-! ### The value of a postfix text -/

/-- The stack after a piece. The integer digits of a literal are those before the point. -/
def apply (stack : List Int) (piece : List Char) : Except Failure (List Int) :=
  if Numeral.isLiteral piece then do
    let n ← integer (piece.takeWhile (· != '.'))
    return n :: stack
  else if stack.length < 2 then .error (.refused .invalidExpression)
  else do
    let (right, stack) ← pop stack
    let (left, stack) ← pop stack
    match Postfix.operator? piece with
    | none => .error (.refused .invalidExpression)
    | some o =>
      let n ← refusing (o.apply left right)
      return n :: stack

/-- The value of a postfix text. -/
def evaluate (text : List Char) : Except Failure Int := do
  let stack ← (Postfix.piecesOf text).foldlM apply []
  if stack.length = 1 then
    let (n, _) ← pop stack
    return n
  else .error (.refused .unknownVariable)

/-! ### Statements -/

/-- The assignment that a statement makes. -/
def assign (store : Store) (statement : String) : Except Failure Assignment :=
  let (name, source) := Assignment.sides statement.toList
  if !isIdentifier name || !(Numeral.isInteger source || isIdentifier source) then
    .error (.refused .invalidIdentifier)
  else if Numeral.isInteger source then do
    let n ← integer source
    return ⟨String.ofList name, n⟩
  else if store.contains (String.ofList source) then do
    let n ← value store source
    return ⟨String.ofList name, n⟩
  else .error (.refused .unknownVariable)

/-- The effect of a statement. -/
def execute (store : Store) (statement : String) : Except Failure Calculator.Effect :=
  if Calculator.isAssignment statement then (assign store statement).map .assigned
  else do
    let text ← convert store statement.toList
    let n ← evaluate text
    return .value n

end Bare

/-- The engine that carries out statements on bare texts. -/
def bare : Engine := fun store statement =>
  ⟨Calculator.journal store statement, Bare.execute store statement⟩

end DeskCalc.Session
