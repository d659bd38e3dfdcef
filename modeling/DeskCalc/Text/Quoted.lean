import DeskCalc.Text.Visible

/-!
# Quoted text

The form in which journal records show a text: between single quotes, or between double quotes if
the text holds a single quote and no double one. The backslash and the enclosing quote get a
backslash, and a character that is not visible is written by a letter or by its code point.

## Main definitions

* `Text.quoted` — one text between quotes
* `Text.quotedList` — a list of texts, each quoted, between brackets
-/

namespace DeskCalc.Text

/-- The code point in hexadecimal with at least `width` digits. -/
def hex (width : Nat) (c : Char) : List Char :=
  let digits := Nat.toDigits 16 c.toNat
  List.replicate (width - digits.length) '0' ++ digits

/-- One character as it stands between the quotes `quote`. -/
def escape (quote : Char) (c : Char) : List Char :=
  if c = quote ∨ c = '\\' then ['\\', c]
  else if c = '\t' then ['\\', 't']
  else if c = '\n' then ['\\', 'n']
  else if c = '\r' then ['\\', 'r']
  else if isVisible c then [c]
  else if c.toNat < 0x100 then '\\' :: 'x' :: hex 2 c
  else if c.toNat < 0x10000 then '\\' :: 'u' :: hex 4 c
  else '\\' :: 'U' :: hex 8 c

/-- The quote that encloses a text: the double one only around a text that holds a single quote and
no double one. -/
def enclosingQuote (s : List Char) : Char :=
  if s.contains '\x27' && !s.contains '\x22' then '\x22' else '\x27'

/-- The text between quotes. -/
def quoted (s : List Char) : List Char :=
  let quote := enclosingQuote s
  quote :: (s.flatMap (escape quote) ++ [quote])

/-- The texts between brackets, each quoted, with a comma and a space between neighbours. -/
def quotedList (texts : List (List Char)) : List Char :=
  '[' :: (List.intercalate [',', ' '] (texts.map quoted) ++ [']'])

end DeskCalc.Text
