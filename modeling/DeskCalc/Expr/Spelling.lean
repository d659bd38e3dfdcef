import DeskCalc.Expr
import DeskCalc.Numeral
import DeskCalc.Store
import DeskCalc.Text.Blank

/-!
# How an expression is written

In a line the operands of an expression are literals and names, each behind a possibly empty run of
signs. A run counts as one minus sign if it holds an odd number of them. Blanks may stand anywhere
but inside a literal, a name or a run of signs.

## Main definitions

* `Atom` — a literal or a name, with the text that spells it and its value
* `Factor` — an atom behind a run of signs
* `Expr.lexemes` — the indivisible texts that spell an expression
* `Spaced` — a line that consists of given texts with blanks around them
-/

namespace DeskCalc

/-- A literal, with or without a fraction, or a name. -/
inductive Atom
  | literal (whole : List Char) (fraction : Option (List Char))
  | name (letters : List Char)
  deriving DecidableEq

namespace Atom

/-- The digits of a literal are digits, and a name is made of letters. -/
def WellFormed : Atom → Prop
  | literal whole none => Numeral.isDigits whole = true
  | literal whole (some fraction) =>
    Numeral.isDigits whole = true ∧ Numeral.isDigits fraction = true
  | name letters => isIdentifier letters = true

instance WellFormed.instDecidable : (a : Atom) → Decidable a.WellFormed
  | literal whole none => inferInstanceAs (Decidable (Numeral.isDigits whole = true))
  | literal whole (some fraction) => inferInstanceAs
      (Decidable (Numeral.isDigits whole = true ∧ Numeral.isDigits fraction = true))
  | name letters => inferInstanceAs (Decidable (isIdentifier letters = true))

/-- The text that spells an atom. -/
def text : Atom → List Char
  | literal whole none => whole
  | literal whole (some fraction) => whole ++ '.' :: fraction
  | name letters => letters

/-- A name has to have a value; a literal needs nothing from the store. -/
def IsSet (store : Store) : Atom → Prop
  | literal _ _ => True
  | name letters => store.contains (String.ofList letters) = true

instance IsSet.instDecidable (store : Store) : (a : Atom) → Decidable (a.IsSet store)
  | literal _ _ => isTrue trivial
  | name letters => inferInstanceAs (Decidable (store.contains (String.ofList letters) = true))

/-- The value of an atom: the number that the integer digits spell, or what the store holds. -/
def value (store : Store) : Atom → Int
  | literal whole _ => Nat.ofDigitChars 10 whole 0
  | name letters => (store.get? (String.ofList letters)).getD 0

end Atom

/-- A sign in front of an operand. -/
inductive Sign
  | plus
  | minus
  deriving DecidableEq

/-- The character that spells a sign. -/
def Sign.char : Sign → Char
  | plus => '+'
  | minus => '-'

/-- An atom behind a run of signs. -/
structure Factor where
  signs : List Sign
  atom : Atom
  deriving DecidableEq

namespace Factor

/-- The indivisible texts that spell a factor: the run of signs, if there is one, and the atom. -/
def lexemes (f : Factor) : List (List Char) :=
  if f.signs = [] then [f.atom.text] else [f.signs.map Sign.char, f.atom.text]

/-- The value of a factor: an odd number of minus signs negates the atom. -/
def value (store : Store) (f : Factor) : Int :=
  if f.signs.count .minus % 2 = 1 then -f.atom.value store else f.atom.value store

end Factor

/-- The indivisible texts that spell an expression. -/
def Expr.lexemes (e : Expr Factor) : List (List Char) :=
  e.inOrder Factor.lexemes fun s => [s.char]

/-- The line consists of the texts, in order, with any number of blanks around each of them. -/
inductive Spaced : List (List Char) → List Char → Prop
  | nil {blanks : List Char} : (∀ c ∈ blanks, Text.isBlank c = true) → Spaced [] blanks
  | cons {blanks lexeme line : List Char} {lexemes : List (List Char)} :
      (∀ c ∈ blanks, Text.isBlank c = true) → Spaced lexemes line →
      Spaced (lexeme :: lexemes) (blanks ++ lexeme ++ line)

end DeskCalc
