import DeskCalc.Numeral
import DeskCalc.Piece
import DeskCalc.Signs

/-!
# Tokens

The tokens of a line are its pieces after signs have been folded into operands. A sign where an
operand is due, that is, at the start, behind an operator or behind an opening parenthesis, belongs
to the literal or name right behind it: a plus vanishes and a minus negates. Any other sign is an
operator.

## Main definitions

* `Operand` — a word with an optional minus sign
* `Token` — a symbol or an operand
* `Token.foldSigns` — the tokens that a list of pieces comes to
* `Token.ofLine` — the tokens of a line, or a refusal

## Main results

* `ofLine_eq_error_iff` — only a doubled `*` or `/` is refused
-/

namespace DeskCalc

/-- An operand: a word that a folded minus sign may negate. -/
structure Operand where
  negated : Bool
  word : List Char
  deriving DecidableEq

/-- The characters that spell an operand. -/
def Operand.text (a : Operand) : List Char := if a.negated then '-' :: a.word else a.word

/-- A token of a line. -/
inductive Token
  | symbol (s : Symbol)
  | operand (a : Operand)
  deriving DecidableEq

namespace Token

/-- The characters that spell a token. -/
def text : Token → List Char
  | symbol s => [s.char]
  | operand a => a.text

/-- The operand that a token is. -/
def operand? : Token → Option Operand
  | symbol _ => none
  | operand a => some a

/-- A piece as a token of its own, without a sign. -/
def ofPiece : Piece → Token
  | .symbol s => symbol s
  | .word w => operand ⟨false, w⟩

/-- Signs are folded into unsigned literals and into names. -/
def takesSign (word : List Char) : Bool := Numeral.isUnsignedLiteral word || isIdentifier word

/-- The operand that a sign makes with the piece behind it. -/
def signed? : Piece → Piece → Option Token
  | .symbol (.op .add), .word w => if takesSign w then some (operand ⟨false, w⟩) else none
  | .symbol (.op .sub), .word w => if takesSign w then some (operand ⟨true, w⟩) else none
  | _, _ => none

/-- An operand is due behind an operator and behind an opening parenthesis. -/
def awaitsOperand : Token → Bool
  | symbol .rightParen => false
  | symbol _ => true
  | operand _ => false

/-- The tokens that the pieces come to, where `due` says whether an operand is due at the front. -/
def foldSigns : Bool → List Piece → List Token
  | _, [] => []
  | _, [p] => [ofPiece p]
  | due, p :: q :: rest =>
    match if due then signed? p q else none with
    | some t => t :: foldSigns false rest
    | none => ofPiece p :: foldSigns (ofPiece p).awaitsOperand (q :: rest)

/-- The tokens of a line. -/
def ofLine (line : List Char) : Except CalcError (List Token) :=
  (Signs.simplify line).map fun s => foldSigns true (Piece.ofLine s)

/-- Only a doubled `*` or `/` keeps a line from being cut into tokens. -/
theorem ofLine_eq_error_iff {line : List Char} {e : CalcError} :
    ofLine line = .error e ↔
      (['*', '*'] <:+: line ∨ ['/', '/'] <:+: line) ∧ e = .invalidExpression := by
  unfold ofLine Signs.simplify
  rw [← Signs.hasDoubled_iff, ← Signs.hasDoubled_iff, ← Bool.or_eq_true]
  split
  · next h => simp [Except.map, h, eq_comm (a := e)]
  · next h => simp [Except.map, h]

theorem ofLine_eq_ok {line : List Char} (hstar : ¬ ['*', '*'] <:+: line)
    (hslash : ¬ ['/', '/'] <:+: line) :
    ofLine line = .ok (foldSigns true (Piece.ofLine (Signs.settle line))) := by
  rw [← Signs.hasDoubled_iff] at hstar hslash
  simp [ofLine, Signs.simplify, hstar, hslash, Except.map]

end Token

end DeskCalc
