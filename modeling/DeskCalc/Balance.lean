/-!
# Balanced parentheses

A line is balanced if every closing parenthesis closes an open one and none is left open. Other
characters do not matter.

## Main definitions

* `depthAfter?` — how many parentheses are open after a text, if none was closed too many
* `isBalanced` — a whole line closes all that it opens

## Main results

* `depthAfter?_append` — the depth of a text goes on from the depth before it
-/

namespace DeskCalc

/-- How many parentheses are open after one more character; none can be closed at depth zero. -/
def depthStep? (depth : Nat) (c : Char) : Option Nat :=
  if c = '(' then some (depth + 1)
  else if c = ')' then
    match depth with
    | 0 => none
    | outer + 1 => some outer
  else some depth

/-- How many parentheses are open after a text that begins at the given depth. -/
def depthAfter? (depth : Nat) (s : List Char) : Option Nat := s.foldlM depthStep? depth

/-- Every parenthesis has its partner. -/
def isBalanced (s : List Char) : Bool := depthAfter? 0 s == some 0

@[simp] theorem depthAfter?_nil (depth : Nat) : depthAfter? depth [] = some depth := rfl

@[simp] theorem depthAfter?_cons (depth : Nat) (c : Char) (s : List Char) :
    depthAfter? depth (c :: s) = (depthStep? depth c).bind fun d => depthAfter? d s := rfl

theorem depthAfter?_append (depth : Nat) (s t : List Char) :
    depthAfter? depth (s ++ t) = (depthAfter? depth s).bind fun d => depthAfter? d t := by
  simp [depthAfter?]

theorem isBalanced_iff {s : List Char} : isBalanced s = true ↔ depthAfter? 0 s = some 0 := by
  simp [isBalanced]

theorem depthStep?_add {depth d : Nat} {c : Char} (h : depthStep? depth c = some d) (outer : Nat) :
    depthStep? (depth + outer) c = some (d + outer) := by
  unfold depthStep? at h ⊢
  by_cases hopen : c = '('
  · rw [if_pos hopen] at h ⊢
    cases h
    rw [Nat.add_right_comm]
  · rw [if_neg hopen] at h ⊢
    by_cases hclose : c = ')'
    · -- Something is open to be closed, and it is still there with more around it.
      rw [if_pos hclose] at h ⊢
      cases depth with
      | zero => cases h
      | succ depth =>
        cases h
        rw [Nat.succ_add]
    · rw [if_neg hclose] at h ⊢
      cases h
      rfl

/-- More open parentheses around a text stay open. -/
theorem depthAfter?_add {depth d : Nat} {s : List Char} (h : depthAfter? depth s = some d)
    (outer : Nat) : depthAfter? (depth + outer) s = some (d + outer) := by
  induction s generalizing depth with
  | nil =>
    cases h
    rfl
  | cons c s ih =>
    rw [depthAfter?_cons] at h ⊢
    obtain ⟨next, hnext, hrest⟩ := Option.bind_eq_some_iff.mp h
    rw [depthStep?_add hnext, Option.bind_some, ih hrest]

end DeskCalc
