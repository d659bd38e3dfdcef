import DeskCalc.Proofs.Calculator.Assignments
import Mathlib.Data.List.Induction

/-!
# The store after a history of calls

Each call meets the store that the calls before it have left, and changes it only by an assignment.
So the store after a history is told by the assignments that were made along it: a name is in it if
one of them gave it a value, and it has the value of the last one that did.

## Main definitions

* `Calculator.AssignsAt` — the call at a position of a history makes an assignment

## Main results

* `assignsAt_concat` — the assignments of a history with one more call
* `mem_names_storeAfter`, `get?_storeAfter` — the names and the values after a history
* `storeAfter_eq_of_history` — the store and its changes along every history
-/

namespace DeskCalc.Calculator

variable {store : Store} {calls : List Call} {a : Assignment} {i : Nat} {name : String}

/-! ### One call -/

/-- A call makes an assignment if it executes a statement that makes it. -/
theorem Call.assignment?_eq_some_iff {c : Call} :
    c.assignment? store = some a ↔
      ∃ statement, c = .execute statement ∧
        Calculator.execute store statement = .ok (.assigned a) := by
  rw [Call.assignment?]
  cases c with
  | execute statement =>
    rw [Call.outcome]
    split
    · next b h => simp [h]
    · next h =>
      have hnot : Calculator.execute store statement ≠ .ok (.assigned a) := h a
      simp [hnot]
  | evaluate line =>
    rw [Call.outcome]
    cases Calculator.evaluate store line <;> simp [Except.map]

/-- A call that has a value or is refused leaves the store as it was. -/
theorem Call.storeAfter_of_not_assigned {c : Call}
    (h : (∃ n, c.outcome store = .ok (.value n)) ∨ ∃ e, c.outcome store = .error e) :
    c.storeAfter store = store := by
  rw [Call.storeAfter]
  rcases h with ⟨n, hn⟩ | ⟨e, he⟩
  · rw [hn]
    rfl
  · rw [he]

theorem storeAfter_concat (calls : List Call) (c : Call) :
    storeAfter store (calls ++ [c]) = c.storeAfter (storeAfter store calls) := by
  rw [storeAfter_append]
  rfl

/-- A call takes no name away and adds at most one. -/
theorem Call.names_storeAfter (store : Store) (c : Call) :
    store.names ⊆ (c.storeAfter store).names ∧ store.size ≤ (c.storeAfter store).size ∧
      (c.storeAfter store).size ≤ store.size + 1 := by
  rw [Call.storeAfter_eq]
  cases c.assignment? store with
  | none => simp
  | some a =>
    obtain ⟨hle, hge⟩ := Store.size_carryOut store a
    refine ⟨?_, hle, hge⟩
    intro name hname
    exact Store.mem_names_carryOut.mpr (Or.inr hname)

/-! ### Histories -/

/-- The call at position `i` of a history executes a statement, against the store that the calls
before it have left, and this makes the assignment `a`. -/
def AssignsAt (calls : List Call) (i : Nat) (a : Assignment) : Prop :=
  ∃ statement, calls[i]? = some (.execute statement) ∧
    execute (storeAfter .empty (calls.take i)) statement = .ok (.assigned a)

theorem AssignsAt.lt_length (h : AssignsAt calls i a) : i < calls.length := by
  obtain ⟨statement, hcall, -⟩ := h
  exact (List.getElem?_eq_some_iff.mp hcall).1

/-- With one more call, a history makes the assignments that it made before and the one of the
call. -/
theorem assignsAt_concat {c : Call} :
    AssignsAt (calls ++ [c]) i a ↔
      AssignsAt calls i a ∨
        i = calls.length ∧ c.assignment? (storeAfter .empty calls) = some a := by
  rcases Nat.lt_trichotomy i calls.length with hlt | rfl | hgt
  · have htake : (calls ++ [c]).take i = calls.take i :=
      List.take_append_of_le_length (Nat.le_of_lt hlt)
    rw [AssignsAt, AssignsAt, List.getElem?_append_left hlt, htake]
    simp [Nat.ne_of_lt hlt]
  · have hnot : ¬ AssignsAt calls calls.length a := fun h => Nat.lt_irrefl _ h.lt_length
    rw [AssignsAt, List.getElem?_concat_length, List.take_left', Call.assignment?_eq_some_iff]
    · simp [hnot]
    · rfl
  · have hnot : ¬ AssignsAt calls i a := fun h => Nat.lt_asymm hgt h.lt_length
    have hnot' : ¬ AssignsAt (calls ++ [c]) i a := fun h => by
      have hlt := h.lt_length
      rw [List.length_append, List.length_singleton] at hlt
      omega
    simp [hnot, hnot', Nat.ne_of_gt hgt]

theorem names_storeAfter_subset (store : Store) (calls : List Call) :
    store.names ⊆ (storeAfter store calls).names ∧ store.size ≤ (storeAfter store calls).size := by
  induction calls using List.reverseRecOn with
  | nil => exact ⟨List.Subset.refl _, Nat.le_refl _⟩
  | append_singleton calls c ih =>
    rw [storeAfter_concat]
    obtain ⟨hnames, hsize, -⟩ := Call.names_storeAfter (storeAfter store calls) c
    exact ⟨List.Subset.trans ih.1 hnames, Nat.le_trans ih.2 hsize⟩

/-- A name is in the store after a history if one of its calls has given it a value. -/
theorem mem_names_storeAfter :
    name ∈ (storeAfter .empty calls).names ↔ ∃ i a, AssignsAt calls i a ∧ a.name = name := by
  induction calls using List.reverseRecOn with
  | nil => simp [AssignsAt, Store.names, Store.empty]
  | append_singleton calls c ih =>
    simp only [assignsAt_concat]
    rw [storeAfter_concat, Call.storeAfter_eq]
    cases c.assignment? (storeAfter .empty calls) with
    | none => simp [ih]
    | some b =>
      rw [Option.map_some, Option.getD_some, Store.mem_names_carryOut, ih]
      constructor
      · rintro (rfl | ⟨i, a, h, hname⟩)
        · exact ⟨calls.length, b, Or.inr ⟨rfl, rfl⟩, rfl⟩
        · exact ⟨i, a, Or.inl h, hname⟩
      · rintro ⟨i, a, h | ⟨-, h⟩, hname⟩
        · exact Or.inr ⟨i, a, h, hname⟩
        · rw [Option.some_inj] at h
          exact Or.inl (h ▸ hname.symm)

/-- A name has the value of the last assignment to it. -/
theorem get?_storeAfter {v : Int} :
    (storeAfter .empty calls).get? name = some v ↔
      ∃ i, AssignsAt calls i ⟨name, v⟩ ∧
        ∀ j a, i < j → AssignsAt calls j a → a.name ≠ name := by
  induction calls using List.reverseRecOn with
  | nil => simp [AssignsAt]
  | append_singleton calls c ih =>
    simp only [assignsAt_concat]
    rw [storeAfter_concat, Call.storeAfter_eq]
    cases hc : c.assignment? (storeAfter .empty calls) with
    | none => simpa using ih
    | some b =>
      rw [Option.map_some, Option.getD_some, Store.get?_carryOut]
      by_cases hname : name = b.name
      · -- The call assigns to the name, so it is the last one that does.
        rw [if_pos hname, Option.some_inj]
        constructor
        · rintro rfl
          refine ⟨calls.length, Or.inr ⟨rfl, hname ▸ rfl⟩, ?_⟩
          rintro j a hj (h | ⟨rfl, -⟩)
          · exact absurd h.lt_length (Nat.lt_asymm hj)
          · exact absurd hj (Nat.lt_irrefl _)
        · rintro ⟨i, h | ⟨-, h⟩, hlast⟩
          · exact absurd hname.symm (hlast calls.length b h.lt_length (Or.inr ⟨rfl, rfl⟩))
          · rw [Option.some_inj] at h
            rw [h]
      · -- The call assigns to another name, so the last assignment is the one before it.
        rw [if_neg hname, ih]
        constructor
        · rintro ⟨i, h, hlast⟩
          refine ⟨i, Or.inl h, ?_⟩
          rintro j a hj (h' | ⟨-, h'⟩)
          · exact hlast j a hj h'
          · rw [Option.some_inj] at h'
            exact h' ▸ Ne.symm hname
        · rintro ⟨i, h | ⟨-, h⟩, hlast⟩
          · exact ⟨i, h, fun j a hj h' => hlast j a hj (Or.inl h')⟩
          · rw [Option.some_inj] at h
            exact absurd (congrArg Assignment.name h).symm hname

/-- The names in the store are identifiers. A name is there if an earlier statement assigned to it,
and it has the value that the right side of the last such statement had then. Calls take no name
away; one call adds at most one, and none if it has a value or is refused, when the store stays as
it was. -/
theorem storeAfter_eq_of_history (calls : List Call) :
    (∀ name ∈ (storeAfter .empty calls).names, isIdentifier name.toList = true) ∧
      (∀ name, name ∈ (storeAfter .empty calls).names ↔
        ∃ i a, AssignsAt calls i a ∧ a.name = name) ∧
      (∀ name v, (storeAfter .empty calls).get? name = some v ↔
        ∃ i statement, calls[i]? = some (.execute statement) ∧
          execute (storeAfter .empty (calls.take i)) statement = .ok (.assigned ⟨name, v⟩) ∧
          Assignment.Source (storeAfter .empty (calls.take i)) statement v ∧
          ∀ j a, i < j → AssignsAt calls j a → a.name ≠ name) ∧
      (∀ c, (storeAfter .empty (calls ++ [c])).size ≤ (storeAfter .empty calls).size + 1) ∧
      (∀ more, (storeAfter .empty calls).names ⊆ (storeAfter .empty (calls ++ more)).names ∧
        (storeAfter .empty calls).size ≤ (storeAfter .empty (calls ++ more)).size) ∧
      ∀ c : Call, ((∃ n, c.outcome (storeAfter .empty calls) = .ok (.value n)) ∨
          ∃ e, c.outcome (storeAfter .empty calls) = .error e) →
        storeAfter .empty (calls ++ [c]) = storeAfter .empty calls := by
  refine ⟨?_, fun name => mem_names_storeAfter, ?_, ?_, ?_, ?_⟩
  · intro name hname
    obtain ⟨i, a, ⟨statement, -, hexecute⟩, rfl⟩ := mem_names_storeAfter.mp hname
    exact (identifier_source_of_execute hexecute).1
  · intro name v
    rw [get?_storeAfter]
    constructor
    · rintro ⟨i, ⟨statement, hcall, hexecute⟩, hlast⟩
      exact ⟨i, statement, hcall, hexecute, (identifier_source_of_execute hexecute).2.2, hlast⟩
    · rintro ⟨i, statement, hcall, hexecute, -, hlast⟩
      exact ⟨i, ⟨statement, hcall, hexecute⟩, hlast⟩
  · intro c
    rw [storeAfter_concat]
    exact (Call.names_storeAfter _ c).2.2
  · intro more
    rw [storeAfter_append]
    exact names_storeAfter_subset _ more
  · intro c hc
    rw [storeAfter_concat]
    exact Call.storeAfter_of_not_assigned hc

/-- A copy keeps the value that its source had, and a division by zero leaves it as it is. -/
theorem storeAfter_eq_of_history_copy :
    (∃ i statement, [Call.execute "x = 5", .execute "y = x", .execute "x = 7"][i]? =
        some (.execute statement) ∧
      execute (storeAfter .empty
          ([Call.execute "x = 5", .execute "y = x", .execute "x = 7"].take i)) statement =
        .ok (.assigned ⟨"y", 5⟩)) ∧
      storeAfter .empty ([.execute "x = 5", .execute "y = x", .execute "x = 7"] ++
          [.evaluate "y / (x - 7)"]) =
        storeAfter .empty [.execute "x = 5", .execute "y = x", .execute "x = 7"] := by
  have h := storeAfter_eq_of_history [.execute "x = 5", .execute "y = x", .execute "x = 7"]
  constructor
  · obtain ⟨i, statement, hcall, hexecute, -⟩ := (h.2.2.1 "y" 5).mp (by decide +kernel)
    exact ⟨i, statement, hcall, hexecute⟩
  · exact h.2.2.2.2.2 (.evaluate "y / (x - 7)") (Or.inr ⟨.divisionByZero, by decide +kernel⟩)

end DeskCalc.Calculator
