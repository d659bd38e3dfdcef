import DeskCalc.Proofs.Postfix.Waiting
import Mathlib.Data.List.Pairwise

/-!
# Where the entries of a line come from

To see that no entry is lost, doubled or written too early, each entry carries the position of the
token that brings it, and so does each operator while it waits. A token writes or leaves waiting
what it brings and what waited before it. An operand is written at once, behind everything that has
been written for the tokens before it, and no later token is written before it.

## Main definitions

* `Postfix.brought`, `Postfix.waitingAt` — entries with the positions of their tokens
* `Postfix.Ordered` — what stands before an operand comes from tokens before it
* `Postfix.Moves` — what one token writes and leaves waiting

## Main results

* `exists_moves` — what any token does
* `exists_ordered` — the entries of a line are those that its tokens bring, in such an order
* `filter_isOperand_entriesFrom` — the operands are in the order of the line
* `entriesFrom_perm` — without the positions: nothing is lost and nothing is doubled
-/

namespace DeskCalc.Postfix

open scoped List

variable {store : Store} {n : Nat} {stack : List (Pending × Nat)}

/-- The entries that tokens bring, early or late, each with the position of its token; the first
token has position `n`. -/
def brought (store : Store) (n : Nat) (tokens : List Token) : List (Entry × Nat) :=
  (tokens.zipIdx n).flatMap fun p => (ownEntries store p.1).map (·, p.2)

/-- The entries for the operators that wait on a stack, each with the position of its token. -/
def waitingAt (stack : List (Pending × Nat)) : List (Entry × Nat) :=
  stack.filterMap fun p => p.1.operator?.map fun o => (.op o, p.2)

/-- Whatever stands before an operand comes from a token before its own. -/
def Ordered (placed : List (Entry × Nat)) : Prop :=
  placed.Pairwise fun p q => q.1.isOperand = true → p.2 < q.2

@[simp] theorem brought_cons (store : Store) (n : Nat) (t : Token) (tokens : List Token) :
    brought store n (t :: tokens) =
      (ownEntries store t).map (·, n) ++ brought store (n + 1) tokens := by
  rw [brought, List.zipIdx_cons, List.flatMap_cons, ← brought]

theorem le_of_mem_brought {tokens : List Token} {p : Entry × Nat}
    (h : p ∈ brought store n tokens) : n ≤ p.2 := by
  obtain ⟨t, ht, hp⟩ := List.mem_flatMap.mp h
  have hle : n ≤ t.2 := List.le_snd_of_mem_zipIdx ht
  obtain ⟨e, -, rfl⟩ := List.mem_map.mp hp
  exact hle

theorem map_fst_brought (store : Store) (n : Nat) (tokens : List Token) :
    (brought store n tokens).map Prod.fst = tokens.flatMap (ownEntries store) := by
  induction tokens generalizing n with
  | nil => rfl
  | cons t tokens ih =>
    rw [brought_cons, List.map_append, ih, List.map_map, List.flatMap_cons]
    exact congrArg (· ++ _) (List.map_id _)

@[simp] theorem waitingAt_append (stack more : List (Pending × Nat)) :
    waitingAt (stack ++ more) = waitingAt stack ++ waitingAt more := List.filterMap_append

@[simp] theorem waitingAt_op (o : Operator) (n : Nat) (stack : List (Pending × Nat)) :
    waitingAt ((.op o, n) :: stack) = (.op o, n) :: waitingAt stack := rfl

@[simp] theorem waitingAt_leftParen (n : Nat) (stack : List (Pending × Nat)) :
    waitingAt ((.leftParen, n) :: stack) = waitingAt stack := rfl

theorem map_fst_waitingAt (stack : List (Pending × Nat)) :
    (waitingAt stack).map Prod.fst = waiting (stack.map Prod.fst) := by
  induction stack with
  | nil => rfl
  | cons p stack ih =>
    obtain ⟨_ | _, n⟩ := p
    · exact congrArg (_ :: ·) ih
    · exact ih

/-- What waits is no operand and has its position from the stack. -/
theorem of_mem_waitingAt {p : Entry × Nat} (h : p ∈ waitingAt stack) :
    p.1.isOperand = false ∧ ∃ x, (x, p.2) ∈ stack := by
  obtain ⟨⟨x, n⟩, hmem, hp⟩ := List.mem_filterMap.mp h
  obtain ⟨o, -, rfl⟩ := Option.map_eq_some_iff.mp hp
  exact ⟨rfl, x, hmem⟩

theorem ordered_waitingAt (stack : List (Pending × Nat)) : Ordered (waitingAt stack) := by
  refine List.pairwise_of_forall_mem_list fun p _ q hq hoperand => ?_
  rw [(of_mem_waitingAt hq).1] at hoperand
  cases hoperand

/-! ### One token -/

/-- No operator is written and none left waiting that the stack does not hold. -/
theorem waitingAt_takeWhile_append_dropWhile (p : Pending × Nat → Bool)
    (stack : List (Pending × Nat)) :
    waitingAt (stack.takeWhile p) ++ waitingAt (stack.dropWhile p) = waitingAt stack := by
  rw [← waitingAt_append, List.takeWhile_append_dropWhile]

/-- The first that is no operator is a parenthesis. -/
theorem waitingAt_drop_one (stack : List (Pending × Nat)) :
    waitingAt ((stack.dropWhile (·.1.operator?.isSome)).drop 1) =
      waitingAt (stack.dropWhile (·.1.operator?.isSome)) := by
  induction stack with
  | nil => rfl
  | cons p stack ih =>
    obtain ⟨_ | _, n⟩ := p
    · rw [List.dropWhile_cons_of_pos rfl]
      exact ih
    · rw [List.dropWhile_cons_of_neg (by simp [Pending.operator?])]
      rfl

/-- The token at position `n` writes `out` and leaves `left` waiting. It adds what it brings itself,
and nothing gets lost. -/
structure Moves (store : Store) (n : Nat) (stack : List (Pending × Nat)) (t : Token)
    (out : List (Entry × Nat)) (left : List (Pending × Nat)) : Prop where
  map_out : out.map Prod.fst = written store (stack.map Prod.fst) t
  map_left : left.map Prod.fst = pendingAfter (stack.map Prod.fst) t
  perm : out ++ waitingAt left ~ waitingAt stack ++ (ownEntries store t).map (·, n)
  ordered : Ordered out
  le_of_mem_left : ∀ p ∈ left, p.2 ≤ n

/-- Nothing is written that comes from behind the token. -/
theorem Moves.le_of_mem_out {t : Token} {out : List (Entry × Nat)} {left : List (Pending × Nat)}
    (h : Moves store n stack t out left) (hstack : ∀ p ∈ stack, p.2 < n) :
    ∀ p ∈ out, p.2 ≤ n := by
  intro p hp
  rcases List.mem_append.mp (h.perm.mem_iff.mp (List.mem_append_left _ hp)) with hwaits | hown
  · obtain ⟨-, x, hx⟩ := of_mem_waitingAt hwaits
    exact Nat.le_of_lt (hstack _ hx)
  · obtain ⟨e, -, rfl⟩ := List.mem_map.mp hown
    exact Nat.le_refl n

theorem exists_moves (store : Store) (hstack : ∀ p ∈ stack, p.2 < n) (t : Token) :
    ∃ out left, Moves store n stack t out left := by
  -- What stays on the stack has been there before.
  have hle : ∀ {left : List (Pending × Nat)}, (∀ p ∈ left, p ∈ stack) → ∀ p ∈ left, p.2 ≤ n :=
    fun hleft p hp => Nat.le_of_lt (hstack p (hleft p hp))
  rcases t with (o | _ | _) | a
  · refine ⟨waitingAt (stack.takeWhile (·.1.yieldsTo o)),
      (.op o, n) :: stack.dropWhile (·.1.yieldsTo o), ?_, ?_, ?_, ordered_waitingAt _, ?_⟩
    · rw [map_fst_waitingAt, written_op, List.takeWhile_map]
      rfl
    · rw [pendingAfter_op, List.dropWhile_map]
      rfl
    · -- The operator itself waits in front of those that it lets wait.
      rw [waitingAt_op, ← waitingAt_takeWhile_append_dropWhile (·.1.yieldsTo o) stack]
      exact List.perm_middle.trans (List.perm_append_singleton _ _).symm
    · exact List.forall_mem_cons.mpr
        ⟨Nat.le_refl n, hle fun p hp => (List.dropWhile_sublist _).subset hp⟩
  · refine ⟨[], (.leftParen, n) :: stack, rfl, rfl, ?_, .nil, ?_⟩
    · rw [waitingAt_leftParen]
      exact .of_eq (List.append_nil _).symm
    · exact List.forall_mem_cons.mpr ⟨Nat.le_refl n, hle fun p hp => hp⟩
  · refine ⟨waitingAt (stack.takeWhile (·.1.operator?.isSome)),
      (stack.dropWhile (·.1.operator?.isSome)).drop 1, ?_, ?_, ?_, ordered_waitingAt _, ?_⟩
    · rw [map_fst_waitingAt, written_rightParen, List.takeWhile_map]
      rfl
    · rw [pendingAfter_rightParen, List.dropWhile_map, List.map_drop]
      rfl
    · -- The parenthesis that is dropped is no operator.
      rw [waitingAt_drop_one, waitingAt_takeWhile_append_dropWhile]
      exact .of_eq (List.append_nil _).symm
    · exact hle fun p hp => (List.dropWhile_sublist _).subset (List.mem_of_mem_drop hp)
  · refine ⟨(ownEntries store (.operand a)).map (·, n), stack, ?_, rfl, List.perm_append_comm, ?_,
      hle fun p hp => hp⟩
    · rw [List.map_map]
      exact List.map_id _
    · -- An operand brings one entry at most.
      rw [ownEntries]
      cases a.emit? store with
      | none => exact .nil
      | some e => exact List.pairwise_singleton _ _

/-! ### All tokens -/

/-- The entries of the rest of a line are those that wait and those that its tokens bring, each of
them once, and nothing is written too early. -/
theorem exists_ordered (store : Store) (hstack : ∀ p ∈ stack, p.2 < n) (tokens : List Token) :
    ∃ placed, placed.map Prod.fst = entriesFrom store (stack.map Prod.fst) tokens ∧
      placed ~ waitingAt stack ++ brought store n tokens ∧ Ordered placed := by
  -- The positions on the stack stay below the position of the next token.
  induction tokens generalizing n stack with
  | nil =>
    refine ⟨waitingAt stack, map_fst_waitingAt stack, ?_, ordered_waitingAt stack⟩
    exact .of_eq (List.append_nil _).symm
  | cons t tokens ih =>
    obtain ⟨out, left, hmoves⟩ := exists_moves store hstack t
    obtain ⟨placed, hmap, hperm, hordered⟩ :=
      ih fun p hp => Nat.lt_succ_of_le (hmoves.le_of_mem_left p hp)
    refine ⟨out ++ placed, ?_, ?_, List.pairwise_append.mpr ⟨hmoves.ordered, hordered, ?_⟩⟩
    · rw [List.map_append, hmap, hmoves.map_out, hmoves.map_left, entriesFrom_cons]
    · calc out ++ placed
        _ ~ out ++ (waitingAt left ++ brought store (n + 1) tokens) := hperm.append_left _
        _ = out ++ waitingAt left ++ brought store (n + 1) tokens := (List.append_assoc _ _ _).symm
        _ ~ waitingAt stack ++ (ownEntries store t).map (·, n) ++ brought store (n + 1) tokens :=
          hmoves.perm.append_right _
        _ = waitingAt stack ++ brought store n (t :: tokens) := by
          rw [brought_cons, List.append_assoc]
    · -- An operand among the later entries is brought by a later token.
      intro p hp q hq hoperand
      have hle := hmoves.le_of_mem_out hstack p hp
      rcases List.mem_append.mp (hperm.mem_iff.mp hq) with hwaits | hlater
      · rw [(of_mem_waitingAt hwaits).1] at hoperand
        cases hoperand
      · exact Nat.lt_of_le_of_lt hle (le_of_mem_brought hlater)

/-- All that the tokens bring is written, and all that waited before them, and nothing else. -/
theorem entriesFrom_perm (store : Store) (stack : List Pending) (tokens : List Token) :
    entriesFrom store stack tokens ~ waiting stack ++ tokens.flatMap (ownEntries store) := by
  -- The positions do not matter here, so all that waits gets the same.
  have hstack : ∀ p ∈ stack.map fun x => (x, 0), p.2 < 1 := by
    intro p hp
    obtain ⟨x, -, rfl⟩ := List.mem_map.mp hp
    exact Nat.one_pos
  have hfst : (stack.map fun x => (x, 0)).map Prod.fst = stack := by
    rw [List.map_map]
    exact List.map_id _
  obtain ⟨placed, hmap, hperm, -⟩ := exists_ordered store hstack tokens
  have hentries := hperm.map Prod.fst
  rwa [hmap, hfst, List.map_append, map_fst_waitingAt, hfst, map_fst_brought] at hentries

theorem isOperand_of_emit? {a : Operand} {e : Entry} (h : a.emit? store = some e) :
    e.isOperand = true := by
  rw [Operand.emit?] at h
  split at h
  · cases h
    rfl
  · obtain ⟨v, -, rfl⟩ := Option.map_eq_some_iff.mp h
    rfl

/-- The operands are written in the order of the line, those without an entry left out. -/
theorem filter_isOperand_entriesFrom (store : Store) (stack : List Pending) (tokens : List Token) :
    (entriesFrom store stack tokens).filter Entry.isOperand =
      (tokens.filterMap Token.operand?).filterMap fun a => a.emit? store := by
  -- Only the token itself can bring an operand; what is released are operators.
  have hnone : ∀ operators : List Operator,
      (operators.map Entry.op).filter Entry.isOperand = [] := by
    intro operators
    refine List.filter_eq_nil_iff.mpr fun e he => ?_
    obtain ⟨o, -, rfl⟩ := List.mem_map.mp he
    exact Bool.false_ne_true
  induction tokens generalizing stack with
  | nil => exact hnone _
  | cons t tokens ih =>
    rw [entriesFrom_cons, List.filter_append, ih]
    cases t with
    | symbol s =>
      rw [List.filterMap_cons_none rfl]
      exact congrArg (· ++ _) (hnone _)
    | operand a =>
      have hoperand : Token.operand? (.operand a) = some a := rfl
      rw [written_operand, List.filterMap_cons_some hoperand, List.filterMap_cons]
      cases ha : a.emit? store with
      | none => rfl
      | some e => rw [Option.toList_some, List.filter_cons_of_pos (isOperand_of_emit? ha)]; rfl

end DeskCalc.Postfix
