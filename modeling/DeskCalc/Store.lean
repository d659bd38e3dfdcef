/-!
# The store of named values

A store gives integers to names. Putting a value under a name that has one replaces it; a new name
comes behind the names that are there. Nothing takes a name away.

## Main definitions

* `Store` — names and their values, no name twice
* `Store.put`, `Store.get?`, `Store.contains`, `Store.size`
* `Store.listing` — the entries in the order of their names

## Main results

* `get?_put_self`, `get?_put_of_ne` — a name has the value put under it last
* `contains_put`, `size_put` — what putting does to the set of names
-/

namespace DeskCalc

/-- Names with their values in the order in which the names arrived. -/
structure Store where
  entries : List (String × Int)
  nodup_names : (entries.map Prod.fst).Nodup

namespace Store

/-- The store without names. -/
def empty : Store := ⟨[], List.nodup_nil⟩

/-- The names that have a value. -/
def names (s : Store) : List String := s.entries.map Prod.fst

/-- The value under a name. -/
def get? (s : Store) (name : String) : Option Int := s.entries.lookup name

/-- The name has a value. -/
def contains (s : Store) (name : String) : Bool := (s.get? name).isSome

/-- The number of names that have a value. -/
def size (s : Store) : Nat := s.entries.length

/-- The entries with `value` under `name`: in its place if the name is there, else at the end. -/
def putEntry (name : String) (value : Int) : List (String × Int) → List (String × Int)
  | [] => [(name, value)]
  | e :: es => if e.1 = name then (name, value) :: es else e :: putEntry name value es

theorem map_fst_putEntry (name : String) (value : Int) (es : List (String × Int)) :
    (putEntry name value es).map Prod.fst =
      if name ∈ es.map Prod.fst then es.map Prod.fst else es.map Prod.fst ++ [name] := by
  induction es with
  | nil => rfl
  | cons e es ih =>
    by_cases he : e.1 = name
    · simp [putEntry, he]
    · simp only [putEntry, he, if_false, List.map_cons, ih, List.mem_cons]
      by_cases hmem : name ∈ es.map Prod.fst
      · simp [hmem]
      · simp [hmem, Ne.symm he]

theorem nodup_putEntry {name : String} {value : Int} {es : List (String × Int)}
    (h : (es.map Prod.fst).Nodup) : ((putEntry name value es).map Prod.fst).Nodup := by
  rw [map_fst_putEntry]
  split
  · exact h
  · next hmem =>
    rw [List.nodup_append]
    refine ⟨h, by simp, fun a ha b hb hab => hmem ?_⟩
    rw [List.mem_singleton] at hb
    rwa [← hb, ← hab]

/-- The store with `value` under `name`. -/
def put (s : Store) (name : String) (value : Int) : Store :=
  ⟨putEntry name value s.entries, nodup_putEntry s.nodup_names⟩

/-- The store that holds the pairs, put one after the other. -/
def ofList (pairs : List (String × Int)) : Store :=
  pairs.foldl (fun s p => s.put p.1 p.2) empty

/-- The entries in the order of their names. -/
def listing (s : Store) : List (String × Int) :=
  s.entries.mergeSort fun a b => decide (a.1 ≤ b.1)

/-! ### Looking up -/

@[simp] theorem get?_empty (name : String) : empty.get? name = none := rfl

@[simp] theorem size_empty : empty.size = 0 := rfl

theorem lookup_putEntry_self (name : String) (value : Int) (es : List (String × Int)) :
    (putEntry name value es).lookup name = some value := by
  induction es with
  | nil => simp [putEntry]
  | cons e es ih =>
    by_cases he : e.1 = name
    · simp [putEntry, he]
    · obtain ⟨a, v⟩ := e
      have hne : (name == a) = false := by simpa using Ne.symm he
      have he' : a ≠ name := he
      simp [putEntry, he', List.lookup_cons, hne, ih]

theorem lookup_putEntry_of_ne {name other : String} (h : other ≠ name) (value : Int)
    (es : List (String × Int)) :
    (putEntry name value es).lookup other = es.lookup other := by
  have hne : (other == name) = false := by simpa using h
  induction es with
  | nil => simp [putEntry, List.lookup_cons, hne]
  | cons e es ih =>
    obtain ⟨a, v⟩ := e
    by_cases he : a = name
    · simp [putEntry, he, List.lookup_cons, hne]
    · simp [putEntry, he, List.lookup_cons, ih]

@[simp] theorem get?_put_self (s : Store) (name : String) (value : Int) :
    (s.put name value).get? name = some value :=
  lookup_putEntry_self name value s.entries

theorem get?_put_of_ne {name other : String} (h : other ≠ name) (s : Store) (value : Int) :
    (s.put name value).get? other = s.get? other :=
  lookup_putEntry_of_ne h value s.entries

theorem contains_put (s : Store) (name other : String) (value : Int) :
    (s.put name value).contains other = (decide (other = name) || s.contains other) := by
  by_cases h : other = name
  · simp [contains, h]
  · simp [contains, h, get?_put_of_ne h]

theorem mem_names_iff {s : Store} {name : String} : name ∈ s.names ↔ s.contains name = true := by
  simp only [names, contains, get?]
  induction s.entries with
  | nil => simp
  | cons e es ih =>
    obtain ⟨a, v⟩ := e
    by_cases h : name = a
    · simp [h]
    · have hne : (name == a) = false := by simpa using h
      simp [List.lookup_cons, h, hne, ih]

/-- Putting a value adds a name exactly if the name is new. -/
theorem size_put (s : Store) (name : String) (value : Int) :
    (s.put name value).size = if s.contains name then s.size else s.size + 1 := by
  have h := congrArg List.length (map_fst_putEntry name value s.entries)
  have hmem : name ∈ s.entries.map Prod.fst ↔ s.contains name = true := mem_names_iff
  simp only [size, put]
  rw [List.length_map] at h
  rw [h]
  by_cases hc : s.contains name = true
  · simp only [if_pos (hmem.mpr hc), if_pos hc, List.length_map]
  · simp only [if_neg (mt hmem.mp hc), if_neg hc, List.length_append, List.length_map,
      List.length_singleton]

end Store

end DeskCalc
