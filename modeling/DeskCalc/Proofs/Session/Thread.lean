import DeskCalc.Store

/-!
# Items that share a store

Lines of a session are answered one after the other, and each of them meets the store that the ones
before it have left. An item that leaves the store as it meets it can be taken out: what the others
show, and the store after them all, is the same without it.

## Main definitions

* `threaded` — what each item shows at the store that it meets

## Main results

* `foldl_eraseIdx`, `threaded_eraseIdx` — an item that leaves the store alone can be taken out
-/

namespace DeskCalc

section Threaded

variable {ι α : Type} {next : Store → ι → Store} {shows : Store → ι → α}

/-- What each item shows at the store that it meets, which the items before it have left. -/
def threaded (next : Store → ι → Store) (shows : Store → ι → α) : Store → List ι → List α
  | _, [] => []
  | store, x :: items => shows store x :: threaded next shows (next store x) items

@[simp] theorem threaded_nil (store : Store) : threaded next shows store [] = [] := rfl

@[simp] theorem threaded_cons (store : Store) (x : ι) (items : List ι) :
    threaded next shows store (x :: items) =
      shows store x :: threaded next shows (next store x) items := rfl

/-- What is made of the things shown is itself shown. -/
theorem map_threaded {β : Type} (f : α → β) (store : Store) (items : List ι) :
    (threaded next shows store items).map f =
      threaded next (fun store x => f (shows store x)) store items := by
  induction items generalizing store with
  | nil => rfl
  | cons x items ih => rw [threaded_cons, threaded_cons, List.map_cons, ih]

/-- The item at a position, if there is one, leaves the store as it meets it. -/
def LeavesStore (next : Store → ι → Store) (store : Store) (items : List ι) (i : Nat) : Prop :=
  ∀ x, items[i]? = some x →
    next ((items.take i).foldl next store) x = (items.take i).foldl next store

theorem LeavesStore.of_cons {store : Store} {x : ι} {items : List ι} {i : Nat}
    (h : LeavesStore next store (x :: items) (i + 1)) :
    LeavesStore next (next store x) items i := by
  intro y hy
  exact h y hy

/-- The store after all items is the same without an item that leaves it alone. -/
theorem foldl_eraseIdx {store : Store} {items : List ι} {i : Nat}
    (h : LeavesStore next store items i) :
    (items.eraseIdx i).foldl next store = items.foldl next store := by
  induction items generalizing store i with
  | nil => rfl
  | cons x items ih =>
    cases i with
    | zero =>
      have hx : next store x = store := h x rfl
      rw [List.eraseIdx_cons_zero, List.foldl_cons, hx]
    | succ i => exact ih h.of_cons

/-- Without an item that leaves the store alone, the others show what they showed with it. -/
theorem threaded_eraseIdx {store : Store} {items : List ι} {i : Nat}
    (h : LeavesStore next store items i) :
    threaded next shows store (items.eraseIdx i) =
      (threaded next shows store items).eraseIdx i := by
  induction items generalizing store i with
  | nil => rfl
  | cons x items ih =>
    cases i with
    | zero =>
      have hx : next store x = store := h x rfl
      rw [List.eraseIdx_cons_zero, threaded_cons, List.eraseIdx_cons_zero, hx]
    | succ i =>
      rw [List.eraseIdx_cons_succ, threaded_cons, threaded_cons, List.eraseIdx_cons_succ,
        ih h.of_cons]

end Threaded

end DeskCalc
