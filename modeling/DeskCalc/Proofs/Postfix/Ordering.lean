import DeskCalc.Proofs.Expr.Sentence
import DeskCalc.Proofs.Postfix.Run
import DeskCalc.Proofs.Postfix.Waiting

/-!
# The order of the entries

A grouped expression is converted to the post-order of its operands and operators. While its tokens
arrive, nothing is taken from the stack below: an operator that waits there for the expression as
its right operand has a lower precedence than every operator that reaches down to it. What still
waits when the expression ends are the operators along its right edge, none of them weaker than the
expression is tight.

## Main definitions

* `Postfix.Below` — a stack on which an expression of a given tightness can be converted
* `Postfix.listing` — the entries of an expression in post-order
* `Postfix.Leaves` — what the tokens of an expression write and leave waiting

## Main results

* `leaves_of_grouped` — a grouped expression is written in post-order
* `entriesFrom_tokens` — the entries of a line that consists of a grouped expression
* `run_tokens` — a run over them yields the value of the expression
-/

namespace DeskCalc.Postfix

variable {α : Type} {operand : α → Operand}

/-- An operator on top of the stack waits for an expression that holds together more tightly. -/
def Below (stack : List Pending) (tightness : Nat) : Prop :=
  ∀ o, stack.head? = some (.op o) → o.precedence < tightness

theorem Below.mono {stack : List Pending} {n m : Nat} (h : Below stack n) (hle : n ≤ m) :
    Below stack m :=
  fun o ho => Nat.lt_of_lt_of_le (h o ho) hle

theorem below_op {o : Operator} {n : Nat} (h : o.precedence < n) (stack : List Pending) :
    Below (.op o :: stack) n := by
  intro p hp
  cases hp
  exact h

theorem below_leftParen (stack : List Pending) (n : Nat) : Below (.leftParen :: stack) n := by
  intro o ho
  cases ho

/-- Nothing below gives way to an operator that could have been part of the expression. -/
theorem Below.takeWhile_dropWhile {stack : List Pending} {o : Operator}
    (h : Below stack o.precedence) :
    stack.takeWhile (·.yieldsTo o) = [] ∧ stack.dropWhile (·.yieldsTo o) = stack := by
  cases stack with
  | nil => exact ⟨rfl, rfl⟩
  | cons p stack =>
    have hp : p.yieldsTo o = false := by
      cases p with
      | leftParen => rfl
      | op q =>
        have hlt := h q rfl
        exact decide_eq_false (Nat.not_le.mpr hlt)
    exact ⟨List.takeWhile_cons_of_neg (by simp [hp]), List.dropWhile_cons_of_neg (by simp [hp])⟩

/-- Waiting operators that are strong enough are written before an operator comes to wait. -/
theorem written_op_of_le {pend : List Operator} {stack : List Pending} {o : Operator}
    (hpend : ∀ p ∈ pend, o.precedence ≤ p.precedence) (h : Below stack o.precedence)
    (store : Store) :
    written store (pend.map .op ++ stack) (.symbol (.op o)) = pend.map .op ∧
      pendingAfter (pend.map .op ++ stack) (.symbol (.op o)) = .op o :: stack := by
  have hyields : ∀ p ∈ pend.map Pending.op, p.yieldsTo o = true := by
    intro p hp
    obtain ⟨q, hq, rfl⟩ := List.mem_map.mp hp
    exact decide_eq_true (hpend q hq)
  obtain ⟨htake, hdrop⟩ := h.takeWhile_dropWhile
  rw [written_op, pendingAfter_op, List.takeWhile_append_of_pos hyields,
    List.dropWhile_append_of_pos hyields, htake, hdrop, List.append_nil, waiting_map_op]
  exact ⟨rfl, rfl⟩

/-- A closing parenthesis writes the operators that wait above its partner. -/
theorem written_rightParen_map_op (pend : List Operator) (stack : List Pending) (store : Store) :
    written store (pend.map .op ++ .leftParen :: stack) (.symbol .rightParen) = pend.map .op ∧
      pendingAfter (pend.map .op ++ .leftParen :: stack) (.symbol .rightParen) = stack := by
  have hsome : ∀ p ∈ pend.map Pending.op, p.operator?.isSome = true := by
    intro p hp
    obtain ⟨q, -, rfl⟩ := List.mem_map.mp hp
    rfl
  rw [written_rightParen, pendingAfter_rightParen, List.takeWhile_append_of_pos hsome,
    List.dropWhile_append_of_pos hsome]
  constructor
  · rw [List.takeWhile_cons_of_neg (by simp [Pending.operator?]), List.append_nil, waiting_map_op]
  · rw [List.dropWhile_cons_of_neg (by simp [Pending.operator?])]
    rfl

/-- The entries of an expression in post-order. -/
def listing (store : Store) (operand : α → Operand) (e : Expr α) : List Entry :=
  (e.postOrder (fun a => ((operand a).emit? store).toList) fun o => [.op o]).flatten

@[simp] theorem listing_operand (store : Store) (a : α) :
    listing store operand (.operand a) = ((operand a).emit? store).toList := by
  simp [listing, Expr.postOrder]

@[simp] theorem listing_paren (store : Store) (e : Expr α) :
    listing store operand (.paren e) = listing store operand e := rfl

@[simp] theorem listing_binary (store : Store) (o : Operator) (left right : Expr α) :
    listing store operand (.binary o left right) =
      listing store operand left ++ listing store operand right ++ [.op o] := by
  simp [listing, Expr.postOrder]

/-- On the given stack the tokens of the expression write entries and leave operators waiting, the
topmost first, and together these list the expression. -/
def Leaves (store : Store) (operand : α → Operand) (stack : List Pending) (e : Expr α) : Prop :=
  ∃ (out : List Entry) (pend : List Operator), (∀ p ∈ pend, e.tightness ≤ p.precedence) ∧
    out ++ pend.map .op = listing store operand e ∧
    ∀ rest, entriesFrom store stack (e.tokens operand ++ rest) =
      out ++ entriesFrom store (pend.map .op ++ stack) rest

/-- A grouped expression is written in post-order, up to the operators that still wait. -/
theorem leaves_of_grouped {e : Expr α} (hgrouped : e.Grouped) (store : Store)
    {stack : List Pending} (hbelow : Below stack e.tightness) :
    Leaves store operand stack e := by
  induction e generalizing stack with
  | operand a =>
    exact ⟨((operand a).emit? store).toList, [], by simp, by simp, fun rest => rfl⟩
  | paren e ih =>
    -- Everything that waits above the parenthesis is written when it is closed.
    obtain ⟨out, pend, -, hlisting, hentries⟩ := ih hgrouped (below_leftParen stack e.tightness)
    refine ⟨out ++ pend.map .op, [], by simp, ?_, fun rest => ?_⟩
    · rw [List.map_nil, List.append_nil, hlisting]
      rfl
    · obtain ⟨hwritten, hpending⟩ := written_rightParen_map_op pend stack store
      rw [Expr.tokens_paren, List.cons_append, entriesFrom_cons, written_leftParen,
        pendingAfter_leftParen, List.nil_append, List.append_assoc, hentries, List.singleton_append,
        entriesFrom_cons, hwritten, hpending, ← List.append_assoc]
      rfl
  | binary o left right ihl ihr =>
    obtain ⟨hl, hr, hgl, hgr⟩ := hgrouped
    -- The left operand is at least as tight as the operator and the right one tighter, so the
    -- condition on the stack holds for both, for the right one with the operator on top.
    obtain ⟨outl, pendl, hpendl, hlistingl, hentriesl⟩ := ihl hgl (hbelow.mono hl)
    obtain ⟨outr, pendr, hpendr, hlistingr, hentriesr⟩ := ihr hgr (below_op hr stack)
    refine ⟨outl ++ pendl.map .op ++ outr, pendr ++ [o], fun p hp => ?_, ?_, fun rest => ?_⟩
    · change o.precedence ≤ p.precedence
      rcases List.mem_append.mp hp with hp | hp
      · exact Nat.le_trans (Nat.le_of_lt hr) (hpendr p hp)
      · obtain rfl := List.mem_singleton.mp hp
        exact Nat.le_refl _
    · rw [List.map_append, ← List.append_assoc, List.append_assoc _ outr, hlistingl, hlistingr]
      simp
    · -- The operator releases what the left operand left waiting and nothing below it.
      obtain ⟨hwritten, hpending⟩ := written_op_of_le
        (fun p hp => Nat.le_trans hl (hpendl p hp)) hbelow store
      rw [Expr.tokens_binary, List.append_assoc, hentriesl, List.cons_append, entriesFrom_cons,
        hwritten, hpending, hentriesr]
      simp

/-- A line that consists of a grouped expression is converted to its post-order. -/
theorem entriesFrom_tokens {e : Expr α} (hgrouped : e.Grouped) (store : Store) :
    entriesFrom store [] (e.tokens operand) = listing store operand e := by
  have hbelow : Below [] e.tightness := fun o ho => by cases ho
  obtain ⟨out, pend, -, hlisting, hentries⟩ := leaves_of_grouped hgrouped store hbelow
  have h := hentries []
  rw [List.append_nil] at h
  rw [h, List.append_nil, ← hlisting]
  exact congrArg (out ++ ·) (waiting_map_op pend)

/-- The pieces of a listing are those of its operands and operators. -/
theorem flatMap_pieces_listing (store : Store) (e : Expr α) :
    (listing store operand e).flatMap Entry.pieces =
      (e.postOrder (fun a => ((operand a).emit? store).toList.flatMap Entry.pieces)
        fun o => [[o.char]]).flatten := by
  induction e with
  | operand a => simp [Expr.postOrder]
  | paren e ih => exact ih
  | binary o left right ihl ihr => simp [Expr.postOrder, ihl, ihr]

/-- If each operand pushes its value, the line of a grouped expression yields the value of the
expression. -/
theorem run_tokens {e : Expr α} (hgrouped : e.Grouped) {store : Store} {value : α → Int}
    (h : ∀ a ∈ e.operands, ∀ stack,
      run stack (((operand a).emit? store).toList.flatMap Entry.pieces) = .ok (value a :: stack)) :
    run [] ((entriesFrom store [] (e.tokens operand)).flatMap Entry.pieces) =
      (e.eval value).map ([·]) := by
  rw [entriesFrom_tokens hgrouped, flatMap_pieces_listing, run_postOrder h]

end DeskCalc.Postfix
