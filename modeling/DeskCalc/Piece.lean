import DeskCalc.Operator
import DeskCalc.Text.Blank

/-!
# Pieces of a line

Operators and parentheses cut a line into pieces: each of them is a piece of its own, and so is
every stretch of other characters between them. A stretch is trimmed, and one that is all blank is
no piece. So `12 ab` is one piece, blanks inside it included.

## Main definitions

* `Piece` — a symbol or a word
* `Piece.cut` — the symbols of a line and the stretches between them
* `Piece.ofLine` — the same with the stretches trimmed and the blank ones left out

## Main results

* `cut_append_symbol` — a symbol separates what stands before it from what stands behind it
-/

namespace DeskCalc

/-- A piece of a line: a symbol, or a word without symbols. -/
inductive Piece
  | symbol (s : Symbol)
  | word (w : List Char)
  deriving DecidableEq

namespace Piece

/-- The pieces of a line with one more character in front: a symbol opens a piece of its own, and
any other character belongs to the word that follows it. -/
def prepend (c : Char) (pieces : List Piece) : List Piece :=
  match Symbol.ofChar? c with
  | some s => symbol s :: pieces
  | none =>
    match pieces with
    | word w :: rest => word (c :: w) :: rest
    | _ => word [c] :: pieces

/-- The symbols of a line and the stretches of other characters between them. -/
def cut (line : List Char) : List Piece := line.foldr prepend []

/-- A piece with its word trimmed, if anything is left of it. -/
def trimmed? : Piece → Option Piece
  | symbol s => some (symbol s)
  | word w => if Text.trim w = [] then none else some (word (Text.trim w))

/-- The pieces of a line. -/
def ofLine (line : List Char) : List Piece := (cut line).filterMap trimmed?

@[simp] theorem cut_nil : cut [] = [] := rfl

@[simp] theorem cut_cons (c : Char) (line : List Char) :
    cut (c :: line) = prepend c (cut line) := rfl

@[simp] theorem prepend_symbol (s : Symbol) (pieces : List Piece) :
    prepend s.char pieces = symbol s :: pieces := by
  simp [prepend]

/-- What is put in front of pieces that begin with a symbol is cut on its own. -/
theorem foldr_prepend_symbol (line : List Char) (s : Symbol) (pieces : List Piece) :
    line.foldr prepend (symbol s :: pieces) = cut line ++ symbol s :: pieces := by
  induction line with
  | nil => rfl
  | cons c line ih =>
    rw [List.foldr_cons, ih, cut_cons]
    unfold prepend
    split
    · rfl
    · cases cut line with
      | nil => rfl
      | cons p rest => cases p <;> rfl

/-- A symbol separates what stands before it from what stands behind it. -/
theorem cut_append_symbol (before behind : List Char) (s : Symbol) :
    cut (before ++ s.char :: behind) = cut before ++ symbol s :: cut behind := by
  rw [cut, List.foldr_append, List.foldr_cons, prepend_symbol, foldr_prepend_symbol]
  rfl

theorem ofLine_append_symbol (before behind : List Char) (s : Symbol) :
    ofLine (before ++ s.char :: behind) = ofLine before ++ symbol s :: ofLine behind := by
  simp [ofLine, cut_append_symbol, trimmed?]

end Piece

end DeskCalc
