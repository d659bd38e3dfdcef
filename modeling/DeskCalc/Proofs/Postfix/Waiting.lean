import DeskCalc.Proofs.Token.Nesting
import DeskCalc.Proofs.Postfix.Pieces

/-!
# The stack of waiting operators

A token writes some of the waiting operators and lets others wait. An open parenthesis waits until
its partner arrives, and the stack holds those that are open. What stands between a parenthesis and
its partner is converted as if it stood alone, since no token looks below the open parenthesis on
the stack.

## Main definitions

* `Postfix.ownEntries` — the entries that a token brings
* `Postfix.waiting` — the entries for the operators on a stack
* `Postfix.writtenAll` — what tokens write while they arrive

## Main results

* `entriesFrom_append` — the rest of a line is converted on the stack that the tokens before it
  leave
* `count_leftParen_pendingAfter` — the stack holds the parentheses that are open
* `leftParen_mem_pendingAfterAll`, `leftParen_not_mem_pendingAfterAll` — each of them finds its
  partner
* `entriesFrom_enclosed` — enclosed tokens are converted on their own
-/

namespace DeskCalc.Postfix

/-- The entries that a token brings, early or late. -/
def ownEntries (store : Store) : Token → List Entry
  | .operand a => (a.emit? store).toList
  | .symbol (.op o) => [.op o]
  | .symbol _ => []

/-- The entries for the operators that wait on a stack. -/
def waiting (stack : List Pending) : List Entry := (stack.filterMap Pending.operator?).map .op

@[simp] theorem waiting_nil : waiting [] = [] := rfl

@[simp] theorem waiting_op (o : Operator) (stack : List Pending) :
    waiting (.op o :: stack) = .op o :: waiting stack := rfl

@[simp] theorem waiting_leftParen (stack : List Pending) :
    waiting (.leftParen :: stack) = waiting stack := rfl

@[simp] theorem waiting_map_op (operators : List Operator) :
    waiting (operators.map .op) = operators.map .op := by
  induction operators with
  | nil => rfl
  | cons o operators ih => rw [List.map_cons, List.map_cons, waiting_op, ih]

/-! ### What a token writes and what it leaves -/

@[simp] theorem written_operand (store : Store) (stack : List Pending) (a : Operand) :
    written store stack (.operand a) = (a.emit? store).toList := rfl

@[simp] theorem written_op (store : Store) (stack : List Pending) (o : Operator) :
    written store stack (.symbol (.op o)) = waiting (stack.takeWhile (·.yieldsTo o)) := rfl

@[simp] theorem written_leftParen (store : Store) (stack : List Pending) :
    written store stack (.symbol .leftParen) = [] := rfl

@[simp] theorem written_rightParen (store : Store) (stack : List Pending) :
    written store stack (.symbol .rightParen) =
      waiting (stack.takeWhile (·.operator?.isSome)) := rfl

@[simp] theorem pendingAfter_op (stack : List Pending) (o : Operator) :
    pendingAfter stack (.symbol (.op o)) = .op o :: stack.dropWhile (·.yieldsTo o) := rfl

@[simp] theorem pendingAfter_leftParen (stack : List Pending) :
    pendingAfter stack (.symbol .leftParen) = .leftParen :: stack := rfl

@[simp] theorem pendingAfter_rightParen (stack : List Pending) :
    pendingAfter stack (.symbol .rightParen) =
      (stack.dropWhile (·.operator?.isSome)).drop 1 := rfl

/-- What tokens write while they arrive, one after the other. -/
def writtenAll (store : Store) : List Pending → List Token → List Entry
  | _, [] => []
  | stack, t :: tokens => written store stack t ++ writtenAll store (pendingAfter stack t) tokens

/-- The entries of a line are what has been written so far and those for the rest of the line, which
is converted on the stack that has been reached. -/
theorem entriesFrom_append (store : Store) (stack : List Pending) (tokens rest : List Token) :
    entriesFrom store stack (tokens ++ rest) =
      writtenAll store stack tokens ++
        entriesFrom store (tokens.foldl pendingAfter stack) rest := by
  induction tokens generalizing stack with
  | nil => rfl
  | cons t tokens ih =>
    rw [List.cons_append, entriesFrom_cons, ih, writtenAll, List.append_assoc, List.foldl_cons]

/-! ### Open parentheses on the stack -/

/-- An operator never takes a parenthesis from the stack. -/
theorem count_leftParen_dropWhile {p : Pending → Bool} (hp : p .leftParen = false)
    (stack : List Pending) :
    (stack.dropWhile p).count .leftParen = stack.count .leftParen := by
  induction stack with
  | nil => rfl
  | cons x stack ih =>
    by_cases hx : p x = true
    · have hne : x ≠ .leftParen := by
        rintro rfl
        rw [hp] at hx
        cases hx
      rw [List.dropWhile_cons_of_pos hx, ih, List.count_cons_of_ne hne]
    · rw [List.dropWhile_cons_of_neg hx]

/-- A closing parenthesis takes the topmost open one from the stack, if there is one. -/
theorem count_leftParen_drop_one (stack : List Pending) :
    ((stack.dropWhile (·.operator?.isSome)).drop 1).count .leftParen =
      stack.count .leftParen - 1 := by
  induction stack with
  | nil => rfl
  | cons x stack ih =>
    cases x with
    | op o =>
      rw [List.dropWhile_cons_of_pos rfl, ih, List.count_cons_of_ne (by simp)]
    | leftParen =>
      rw [List.dropWhile_cons_of_neg (by simp [Pending.operator?]), List.count_cons_self]
      rfl

/-- After a token the stack holds as many parentheses as are open. -/
theorem count_leftParen_pendingAfter {stack : List Pending} {t : Token} {depth : Nat}
    (h : Token.nestingStep? (stack.count .leftParen) t = some depth) :
    (pendingAfter stack t).count .leftParen = depth := by
  rcases t with (o | _ | _) | a
  · cases h
    rw [pendingAfter_op, List.count_cons_of_ne (by simp), count_leftParen_dropWhile rfl]
  · cases h
    rw [pendingAfter_leftParen, List.count_cons_self]
  · -- A parenthesis can only be closed if one is open.
    rw [pendingAfter_rightParen, count_leftParen_drop_one]
    cases hcount : stack.count .leftParen with
    | zero =>
      rw [hcount] at h
      cases h
    | succ outer =>
      rw [hcount] at h
      cases h
      rfl
  · cases h
    rfl

/-- After tokens have arrived, the stack holds as many parentheses as are open. -/
theorem count_leftParen_foldl {stack : List Pending} {tokens : List Token} {depth : Nat}
    (h : Token.nestingAfter? (stack.count .leftParen) tokens = some depth) :
    (tokens.foldl pendingAfter stack).count .leftParen = depth := by
  induction tokens generalizing stack with
  | nil => exact Option.some.inj h
  | cons t tokens ih =>
    rw [Token.nestingAfter?_cons] at h
    obtain ⟨next, hnext, hrest⟩ := Option.bind_eq_some_iff.mp h
    rw [← count_leftParen_pendingAfter hnext] at hrest
    exact ih hrest

/-- Where all parentheses are closed, none is left waiting. -/
theorem leftParen_not_mem_pendingAfterAll {tokens : List Token}
    (h : Token.nestingAfter? 0 tokens = some 0) : .leftParen ∉ pendingAfterAll tokens :=
  List.count_eq_zero.mp (count_leftParen_foldl h)

/-- Where a parenthesis is closed, its partner waits. -/
theorem leftParen_mem_pendingAfterAll {before behind : List Token} {depth : Nat}
    (h : Token.nestingAfter? 0 (before ++ .symbol .rightParen :: behind) = some depth) :
    .leftParen ∈ pendingAfterAll before := by
  rw [Token.nestingAfter?_append] at h
  obtain ⟨outer, hbefore, hbehind⟩ := Option.bind_eq_some_iff.mp h
  have hcount : (pendingAfterAll before).count .leftParen = outer := count_leftParen_foldl hbefore
  refine List.count_pos_iff.mp (Nat.pos_of_ne_zero ?_)
  rw [hcount]
  rintro rfl
  cases hbehind

/-! ### Enclosed tokens -/

theorem takeWhile_append_leftParen {p : Pending → Bool} (hp : p .leftParen = false)
    (stack outer : List Pending) :
    (stack ++ .leftParen :: outer).takeWhile p = stack.takeWhile p := by
  induction stack with
  | nil => simp [hp]
  | cons x stack ih => rw [List.cons_append, List.takeWhile_cons, List.takeWhile_cons, ih]

theorem dropWhile_append_leftParen {p : Pending → Bool} (hp : p .leftParen = false)
    (stack outer : List Pending) :
    (stack ++ .leftParen :: outer).dropWhile p = stack.dropWhile p ++ .leftParen :: outer := by
  induction stack with
  | nil => simp [hp]
  | cons x stack ih =>
    rw [List.cons_append, List.dropWhile_cons, List.dropWhile_cons, ih]
    split <;> rfl

/-- No token looks below an open parenthesis. -/
theorem written_append_leftParen (store : Store) (stack outer : List Pending) (t : Token) :
    written store (stack ++ .leftParen :: outer) t = written store stack t := by
  rcases t with (o | _ | _) | a
  · rw [written_op, written_op, takeWhile_append_leftParen rfl]
  · rfl
  · rw [written_rightParen, written_rightParen, takeWhile_append_leftParen rfl]
  · rfl

/-- A token that closes no parenthesis too many leaves alone what is below an open one. -/
theorem pendingAfter_append_leftParen {stack : List Pending} {t : Token} {depth : Nat}
    (h : Token.nestingStep? (stack.count .leftParen) t = some depth) (outer : List Pending) :
    pendingAfter (stack ++ .leftParen :: outer) t =
      pendingAfter stack t ++ .leftParen :: outer := by
  rcases t with (o | _ | _) | a
  · rw [pendingAfter_op, pendingAfter_op, dropWhile_append_leftParen rfl, List.cons_append]
  · rfl
  · rw [pendingAfter_rightParen, pendingAfter_rightParen, dropWhile_append_leftParen rfl]
    -- The stack holds an open parenthesis, so the one below it is not reached.
    refine List.drop_append_of_le_length ?_
    have hcount := count_leftParen_dropWhile (p := (·.operator?.isSome)) rfl stack
    cases hstack : stack.dropWhile (·.operator?.isSome) with
    | nil =>
      rw [hstack, List.count_nil] at hcount
      rw [← hcount] at h
      cases h
    | cons x tail => simp
  · rfl

/-- Tokens between a parenthesis and its partner are converted as if they stood alone. -/
theorem entriesFrom_enclosed {store : Store} {stack : List Pending} {tokens : List Token}
    (h : Token.nestingAfter? (stack.count .leftParen) tokens = some 0) (outer : List Pending)
    (rest : List Token) :
    entriesFrom store (stack ++ .leftParen :: outer) (tokens ++ .symbol .rightParen :: rest) =
      entriesFrom store stack tokens ++ entriesFrom store outer rest := by
  -- The stack above the parenthesis holds as many parentheses as the tokens have opened so far.
  induction tokens generalizing stack with
  | nil =>
    -- All are closed again, so only operators wait above the parenthesis.
    have hcount : stack.count .leftParen = 0 := Option.some.inj h
    have hall : ∀ p ∈ stack, p.operator?.isSome = true := by
      intro p hp
      cases p with
      | op o => rfl
      | leftParen => exact absurd hp (List.count_eq_zero.mp hcount)
    have htake : (stack ++ .leftParen :: outer).takeWhile (·.operator?.isSome) = stack := by
      rw [List.takeWhile_append_of_pos hall]
      simp [Pending.operator?]
    have hdrop : (stack ++ .leftParen :: outer).dropWhile (·.operator?.isSome) =
        .leftParen :: outer := by
      rw [List.dropWhile_append_of_pos hall]
      simp [Pending.operator?]
    rw [List.nil_append, entriesFrom_cons, written_rightParen, pendingAfter_rightParen, htake,
      hdrop]
    rfl
  | cons t tokens ih =>
    rw [Token.nestingAfter?_cons] at h
    obtain ⟨depth, hstep, hrest⟩ := Option.bind_eq_some_iff.mp h
    rw [← count_leftParen_pendingAfter hstep] at hrest
    rw [List.cons_append, entriesFrom_cons, written_append_leftParen,
      pendingAfter_append_leftParen hstep, ih hrest, entriesFrom_cons, List.append_assoc]

end DeskCalc.Postfix
