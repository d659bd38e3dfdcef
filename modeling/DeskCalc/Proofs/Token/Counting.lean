import DeskCalc.Proofs.Expr.Sentence
import DeskCalc.Proofs.Piece.Word
import DeskCalc.Proofs.Postfix.Run
import DeskCalc.Proofs.Postfix.Waiting
import Mathlib.Data.List.Chain

/-!
# Counting operands and operators

Between two operands of a line there is an operator, or the one that comes first, or a closing
parenthesis behind it, has an operand or an opening parenthesis as its neighbour. So a line has at
most one operand more than it has operators and such neighbours. A line without such neighbours that
comes up to this bound alternates between operands and operators.

The evaluation needs one value more than there are operators. An operand that is left out brings no
value, and only a literal that holds spaces brings more than one.

## Main definitions

* `Token.juxtapositions` — how often an operand is followed by another without an operator
* `Operand.extraPieces` — the pieces that an operand brings beyond the first
* `Operand.isLeftOut` — nothing is written for the operand

## Main results

* `countP_isOperand_le` — operands are bounded by operators and juxtapositions
* `alternates_of_countP_le` — without juxtapositions, the bound is reached by alternation only
* `countP_isOperator_le`, `countP_isLiteral_le` — what operators and operands bring to a run
-/

namespace DeskCalc

namespace Token

/-- The token is an operand. -/
def isOperand : Token → Bool
  | operand _ => true
  | symbol _ => false

/-- The token is an operator. -/
def isOperator : Token → Bool
  | symbol (.op _) => true
  | _ => false

/-- An operand, or a part of the line in parentheses, begins with the token. -/
def beginsOperand : Token → Bool
  | operand _ => true
  | symbol .leftParen => true
  | symbol _ => false

/-- An operand, or a part of the line in parentheses, ends with the token. -/
def endsOperand : Token → Bool
  | operand _ => true
  | symbol .rightParen => true
  | symbol _ => false

/-- How often an operand ends where another one begins. -/
def juxtapositions : List Token → Nat
  | t :: u :: tokens =>
    (if t.endsOperand && u.beginsOperand then 1 else 0) + juxtapositions (u :: tokens)
  | _ => 0

theorem juxtapositions_cons (t : Token) (tokens : List Token) :
    juxtapositions (t :: tokens) =
      (if t.endsOperand && tokens.head?.any beginsOperand then 1 else 0) +
        juxtapositions tokens := by
  cases tokens with
  | nil => simp [juxtapositions]
  | cons u tokens => rfl

/-- Without juxtapositions, no operand begins right behind another. -/
theorem juxtapositions_eq_zero_iff {tokens : List Token} :
    juxtapositions tokens = 0 ↔
      tokens.IsChain fun t u => ¬ (t.endsOperand = true ∧ u.beginsOperand = true) := by
  induction tokens with
  | nil => simp [juxtapositions]
  | cons t tokens ih =>
    cases tokens with
    | nil => simp [juxtapositions]
    | cons u tokens =>
      rw [List.isChain_cons_cons, ← ih, juxtapositions, Nat.add_eq_zero_iff]
      simp

/-- A line has at most one operand more than it has operators and juxtapositions, and not even that
if it does not begin with an operand. -/
theorem countP_isOperand_le (tokens : List Token) :
    tokens.countP isOperand + (if tokens.head?.any beginsOperand then 0 else 1) ≤
      tokens.countP isOperator + juxtapositions tokens + 1 := by
  induction tokens with
  | nil => simp [juxtapositions]
  | cons t tokens ih =>
    rw [List.countP_cons, List.countP_cons, juxtapositions_cons, List.head?_cons, Option.any_some]
    -- What is behind the token begins with an operand or not; only a token that ends an operand
    -- makes a juxtaposition with it.
    cases hhead : tokens.head?.any beginsOperand <;>
    · rw [hhead] at ih
      rcases t with (o | _ | _) | a <;>
      · simp only [isOperand, isOperator, beginsOperand, endsOperand, Bool.and_true, Bool.and_false,
          Bool.false_eq_true, if_true, if_false] at ih ⊢
        omega

/-- Without juxtapositions, a line with more operands than operators alternates. Where no operand is
due, as many operands as operators are enough. -/
theorem alternates_of_countP_le {due : Bool} {tokens : List Token}
    (hjuxt : juxtapositions tokens = 0)
    (hhead : due = false → tokens.head?.any beginsOperand = false)
    (hcount : tokens.countP isOperator + (if due then 1 else 0) ≤ tokens.countP isOperand) :
    Alternates due tokens := by
  induction tokens generalizing due with
  | nil =>
    cases due with
    | false => exact .nil
    | true => simp at hcount
  | cons t tokens ih =>
    have hle := countP_isOperand_le tokens
    rw [juxtapositions_cons] at hjuxt
    have hjuxt' : juxtapositions tokens = 0 := by omega
    -- Behind a token that ends an operand none begins, so one operand less is left to come.
    have hbehind : t.endsOperand = true → tokens.head?.any beginsOperand = false := by
      intro hends
      by_contra hbegins
      have hbegins' : tokens.head?.any beginsOperand = true := by simpa using hbegins
      simp [hends, hbegins'] at hjuxt
    rw [hjuxt'] at hle
    rw [List.countP_cons, List.countP_cons] at hcount
    -- A token that may not stand here leaves too few operands behind it to come up to the bound.
    cases due with
    | true =>
      rcases t with (o | _ | _) | a
      · simp only [isOperand, isOperator, Bool.false_eq_true, if_true, if_false] at hcount
        omega
      · refine .leftParen (ih hjuxt' (fun h => by cases h) ?_)
        simpa [isOperand, isOperator] using hcount
      · rw [hbehind rfl] at hle
        simp only [isOperand, isOperator, Bool.false_eq_true, if_true, if_false] at hcount hle
        omega
      · refine .operand a (ih hjuxt' (fun _ => hbehind rfl) ?_)
        simpa [isOperand, isOperator] using hcount
    | false =>
      have hnot := hhead rfl
      rcases t with (o | _ | _) | a
      · refine .op o (ih hjuxt' (fun h => by cases h) ?_)
        simpa [isOperand, isOperator] using hcount
      · cases hnot
      · refine .rightParen (ih hjuxt' (fun _ => hbehind rfl) ?_)
        simpa [isOperand, isOperator] using hcount
      · cases hnot

end Token

/-! ### What operands bring to a run -/

namespace Operand

/-- Nothing is written for the operand: it is a name without a value. -/
def isLeftOut (store : Store) (a : Operand) : Bool := (a.emit? store).isNone

/-- The pieces that the operand brings beyond the first: a literal may hold spaces. -/
def extraPieces (a : Operand) : List (List Char) :=
  if a.isVerbatim then (Postfix.piecesOf a.text).drop 1 else []

end Operand

namespace Token

/-- The token is an operand for which nothing is written. -/
def isLeftOut (store : Store) : Token → Bool
  | operand a => a.isLeftOut store
  | symbol _ => false

/-- The pieces that the token brings beyond the first. -/
def extraPieces : Token → List (List Char)
  | operand a => a.extraPieces
  | symbol _ => []

/-- The pieces that a token brings. -/
def pieces (store : Store) (t : Token) : List (List Char) :=
  (Postfix.ownEntries store t).flatMap Postfix.Entry.pieces

theorem pieces_op (store : Store) (o : Operator) :
    (symbol (.op o)).pieces store = [[o.char]] := by
  simp [pieces, Postfix.ownEntries]

theorem isLiteral_operator (o : Operator) : Numeral.isLiteral [o.char] = false := by
  simp [Numeral.isLiteral]

/-- An operand brings one piece and the extra ones, unless it is left out. -/
theorem length_pieces_operand_le (store : Store) (a : Operand) :
    ((operand a).pieces store).length + (if a.isLeftOut store then 1 else 0) ≤
      a.extraPieces.length + 1 := by
  rw [pieces, Postfix.ownEntries, Operand.isLeftOut, Operand.emit?, Operand.extraPieces]
  by_cases hverbatim : a.isVerbatim = true
  · simp only [hverbatim, if_true, Option.toList_some, List.flatMap_singleton, Option.isNone_some,
      Bool.false_eq_true, if_false, Postfix.Entry.pieces, Postfix.Entry.text, List.length_drop]
    omega
  · cases a.value? store <;> simp [hverbatim]

/-- Every operator is a piece that is no literal. -/
theorem countP_isOperator_le (store : Store) (tokens : List Token) :
    tokens.countP isOperator ≤
      (tokens.flatMap (pieces store)).countP fun p => !Numeral.isLiteral p := by
  induction tokens with
  | nil => simp
  | cons t tokens ih =>
    rw [List.countP_cons, List.flatMap_cons, List.countP_append]
    rcases t with (o | _ | _) | a
    · simp only [pieces_op, List.countP_singleton, isLiteral_operator, isOperator, Bool.not_false,
        if_true]
      omega
    all_goals
      simp only [isOperator, Bool.false_eq_true, if_false]
      omega

/-- Literals come from operands, and an operand that is left out is made up for by the extra pieces
of others. -/
theorem countP_isLiteral_le (store : Store) (tokens : List Token) :
    (tokens.flatMap (pieces store)).countP Numeral.isLiteral + tokens.countP (isLeftOut store) ≤
      tokens.countP isOperand + (tokens.flatMap extraPieces).length := by
  induction tokens with
  | nil => simp
  | cons t tokens ih =>
    rw [List.countP_cons, List.countP_cons, List.flatMap_cons, List.countP_append,
      List.flatMap_cons, List.length_append]
    rcases t with (o | _ | _) | a
    · simp only [pieces_op, List.countP_singleton, isLiteral_operator, isOperand, isLeftOut,
        extraPieces, Bool.false_eq_true, if_false]
      omega
    · simpa [pieces, Postfix.ownEntries, isOperand, isLeftOut, extraPieces] using ih
    · simpa [pieces, Postfix.ownEntries, isOperand, isLeftOut, extraPieces] using ih
    · -- At most all the pieces of the operand are literals.
      have hcount := @List.countP_le_length _ Numeral.isLiteral ((operand a).pieces store)
      have hlength := length_pieces_operand_le store a
      cases hleft : a.isLeftOut store <;>
      · simp only [hleft, isOperand, isLeftOut, extraPieces, if_true, Bool.false_eq_true,
          if_false] at hlength ⊢
        omega

end Token

end DeskCalc
