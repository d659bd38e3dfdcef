/-!
# Ranges of characters

A Unicode property is carried as a table of closed ranges of code points.

## Main definitions

* `Text.inRanges` — membership of a character in such a table
-/

namespace DeskCalc.Text

/-- The code point of `c` lies in one of the closed ranges `(first, last)` of the table. -/
def inRanges (table : List (Nat × Nat)) (c : Char) : Bool :=
  table.any fun r => decide (r.1 ≤ c.toNat) && decide (c.toNat ≤ r.2)

theorem inRanges_iff {table : List (Nat × Nat)} {c : Char} :
    inRanges table c = true ↔ ∃ r ∈ table, r.1 ≤ c.toNat ∧ c.toNat ≤ r.2 := by
  simp [inRanges]

end DeskCalc.Text
