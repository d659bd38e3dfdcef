import DeskCalc.Signs

/-!
# The parity of a run of signs

A run of signs stands for one sign, the minus sign if and only if it holds an odd number of minus
signs. Replacing every maximal run by that sign says in one step what the rewriting of neighbouring
signs comes to.

## Main definitions

* `Signs.runSign` — the one sign that a run stands for
* `Signs.collapse` — the text with every maximal run replaced by its sign
-/

namespace DeskCalc.Signs

/-- The sign that a run stands for: a minus for an odd number of minus signs. -/
def runSign (run : List Char) : Char := if run.count '-' % 2 = 1 then '-' else '+'

/-- The text with every maximal run of signs replaced by the sign it stands for. -/
def collapse : List Char → List Char
  | [] => []
  | c :: s =>
    if isSign c then
      runSign (c :: s.takeWhile isSign) :: collapse (s.dropWhile isSign)
    else
      c :: collapse s
termination_by s => s.length
decreasing_by
  · have := (List.dropWhile_sublist isSign (l := s)).length_le
    simp only [List.length_cons]
    omega
  · simp

@[simp] theorem collapse_nil : collapse [] = [] := by rw [collapse]

theorem collapse_cons_of_not_isSign {c : Char} {s : List Char} (h : isSign c = false) :
    collapse (c :: s) = c :: collapse s := by
  rw [collapse, if_neg (by simp [h])]

theorem collapse_cons_of_isSign {c : Char} {s : List Char} (h : isSign c = true) :
    collapse (c :: s) =
      runSign (c :: s.takeWhile isSign) :: collapse (s.dropWhile isSign) := by
  rw [collapse, if_pos h]

end DeskCalc.Signs
