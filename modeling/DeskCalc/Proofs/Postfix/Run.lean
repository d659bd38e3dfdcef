import DeskCalc.Expr
import DeskCalc.Proofs.Piece.Word
import DeskCalc.Proofs.Postfix.Pieces

/-!
# Runs over a stack of values

One piece of a postfix line either pushes the value of a literal or replaces two values by one. From
this it follows what a whole run does: it never touches the values below those it consumes, its
literals and operators account for the height of the stack, and the values it leaves are those of
the expressions that the pieces list.

## Main definitions

* `Postfix.Lists` — the pieces list an expression in post-order
* `Postfix.Stacked` — the pieces list one expression for each value on the stack

## Main results

* `apply_eq_ok_iff`, `apply_eq_error_iff` — all that one piece can do
* `run_on_top` — a run behaves the same on top of other values
* `length_run` — how literals and operators account for the height of the stack
* `run_postOrder` — a run over an expression pushes its value
* `evaluate_eq_ok_iff` — a text has a value exactly if it lists an expression with that value
-/

namespace DeskCalc

/-! ### Refusals -/

section Refusals

variable {ε α β : Type} {x : Except ε α} {f : α → Except ε β}

/-- What is done in two steps has a value if both steps do. -/
theorem bind_eq_ok_iff {b : β} : x >>= f = .ok b ↔ ∃ a, x = .ok a ∧ f a = .ok b := by
  cases x with
  | error e => simp [bind, Except.bind]
  | ok a => simp [bind, Except.bind]

/-- What is done in two steps is refused at the first or at the second. -/
theorem bind_eq_error_iff {e : ε} :
    x >>= f = .error e ↔ x = .error e ∨ ∃ a, x = .ok a ∧ f a = .error e := by
  cases x with
  | error e => simp [bind, Except.bind]
  | ok a => simp [bind, Except.bind]

end Refusals

namespace Postfix

/-! ### One piece -/

@[simp] theorem operator?_char (o : Operator) : operator? [o.char] = some o :=
  Operator.ofChar?_char o

theorem operator?_eq_some_iff {piece : List Char} {o : Operator} :
    operator? piece = some o ↔ piece = [o.char] := by
  constructor
  · unfold operator?
    split
    · intro h
      rw [Operator.ofChar?_eq_some_iff.mp h]
    · intro h
      cases h
  · rintro rfl
    exact operator?_char o

theorem apply_of_literal {piece : List Char} {n : Int} (h : Numeral.literal? piece = some n)
    (stack : List Int) : apply stack piece = .ok (n :: stack) := by
  unfold apply
  rw [h]

@[simp] theorem apply_operator (o : Operator) (left right : Int) (rest : List Int) :
    apply (right :: left :: rest) [o.char] = (o.apply left right).map (· :: rest) := by
  unfold apply
  rw [Numeral.literal?_operator, operator?_char]

/-- A piece that is no literal replaces two values by one, if it does anything. -/
theorem apply_eq_ok_iff {stack after : List Int} {piece : List Char} :
    apply stack piece = .ok after ↔
      (∃ n, Numeral.literal? piece = some n ∧ after = n :: stack) ∨
        ∃ (o : Operator) (left right : Int) (rest : List Int) (n : Int), piece = [o.char] ∧
          stack = right :: left :: rest ∧ o.apply left right = .ok n ∧ after = n :: rest := by
  constructor
  · intro h
    unfold apply at h
    split at h
    · next n hn =>
      cases h
      exact Or.inl ⟨n, hn, rfl⟩
    · split at h
      · next o right left rest ho =>
        cases hn : o.apply left right with
        | error e =>
          rw [hn] at h
          cases h
        | ok n =>
          rw [hn] at h
          cases h
          exact Or.inr ⟨o, left, right, rest, n, operator?_eq_some_iff.mp ho, rfl, hn, rfl⟩
      · cases h
  · rintro (⟨n, hn, rfl⟩ | ⟨o, left, right, rest, n, rfl, rfl, hn, rfl⟩)
    · exact apply_of_literal hn stack
    · rw [apply_operator, hn]
      rfl

/-- A piece that is no literal is refused if two values are missing or if it is no operator. -/
theorem apply_of_short {stack : List Int} {piece : List Char}
    (hnone : Numeral.literal? piece = none)
    (hshort : stack.length < 2 ∨ ∀ o : Operator, piece ≠ [o.char]) :
    apply stack piece = .error .invalidExpression := by
  unfold apply
  rw [hnone]
  dsimp only
  split
  · next o right left rest ho =>
    rcases hshort with hshort | hshort
    · simp only [List.length_cons] at hshort
      omega
    · exact absurd (operator?_eq_some_iff.mp ho) (hshort o)
  · rfl

/-- A piece that is no literal is refused as a quotient for its zero divisor, and otherwise because
two values are missing or because it is no operator. -/
theorem apply_eq_error_iff {stack : List Int} {piece : List Char} {e : CalcError} :
    apply stack piece = .error e ↔ Numeral.literal? piece = none ∧
      ((∃ (left : Int) (rest : List Int), piece = [Operator.div.char] ∧ stack = 0 :: left :: rest ∧
          e = .divisionByZero) ∨
        (stack.length < 2 ∨ ∀ o : Operator, piece ≠ [o.char]) ∧ e = .invalidExpression) := by
  constructor
  · intro h
    have hnone : Numeral.literal? piece = none := by
      cases hn : Numeral.literal? piece with
      | none => rfl
      | some n =>
        rw [apply_of_literal hn] at h
        cases h
    refine ⟨hnone, ?_⟩
    by_cases hshort : stack.length < 2 ∨ ∀ o : Operator, piece ≠ [o.char]
    · rw [apply_of_short hnone hshort] at h
      exact Or.inr ⟨hshort, (Except.error.inj h).symm⟩
    · -- An operator has its two values, so only a zero divisor is left.
      obtain ⟨hlength, hoperator⟩ := not_or.mp hshort
      obtain ⟨o, ho⟩ := Classical.not_forall.mp hoperator
      obtain rfl := Classical.not_not.mp ho
      rcases stack with _ | ⟨right, _ | ⟨left, rest⟩⟩
      · exact absurd (Nat.zero_lt_succ 1) hlength
      · exact absurd (Nat.lt_succ_self 1) hlength
      · rw [apply_operator] at h
        cases hn : o.apply left right with
        | error x =>
          rw [hn] at h
          cases h
          obtain ⟨rfl, rfl, rfl⟩ := Operator.apply_eq_error_iff.mp hn
          exact Or.inl ⟨left, rest, rfl, rfl, rfl⟩
        | ok n =>
          rw [hn] at h
          cases h
  · rintro ⟨hnone, ⟨left, rest, rfl, rfl, rfl⟩ | ⟨hshort, rfl⟩⟩
    · rfl
    · exact apply_of_short hnone hshort

theorem apply_eq_error {stack : List Int} {piece : List Char} {e : CalcError}
    (h : apply stack piece = .error e) : e = .invalidExpression ∨ e = .divisionByZero := by
  rcases (apply_eq_error_iff.mp h).2 with ⟨-, -, -, -, he⟩ | ⟨-, he⟩
  · exact Or.inr he
  · exact Or.inl he

/-! ### Runs -/

theorem run_cons_eq_ok_iff {stack after : List Int} {piece : List Char}
    {pieces : List (List Char)} :
    run stack (piece :: pieces) = .ok after ↔
      ∃ next, apply stack piece = .ok next ∧ run next pieces = .ok after := by
  rw [run_cons, bind_eq_ok_iff]

theorem run_eq_error {stack : List Int} {pieces : List (List Char)} {e : CalcError}
    (h : run stack pieces = .error e) : e = .invalidExpression ∨ e = .divisionByZero := by
  induction pieces generalizing stack with
  | nil => cases h
  | cons piece pieces ih =>
    rw [run_cons, bind_eq_error_iff] at h
    rcases h with happly | ⟨next, -, hrun⟩
    · exact apply_eq_error happly
    · exact ih hrun

theorem result_eq_error {stack : List Int} {e : CalcError} (h : result stack = .error e) :
    e = .unknownVariable := by
  unfold result at h
  split at h
  · cases h
  · cases h
    rfl

theorem result_of_length_ne_one {stack : List Int} (h : stack.length ≠ 1) :
    result stack = .error .unknownVariable := by
  unfold result
  split
  · next n => exact absurd (List.length_singleton (a := n)) h
  · rfl

theorem evaluate_eq_error {text : List Char} {e : CalcError} (h : evaluate text = .error e) :
    e = .invalidExpression ∨ e = .unknownVariable ∨ e = .divisionByZero := by
  rw [evaluate, bind_eq_error_iff] at h
  rcases h with hrun | ⟨stack, -, hresult⟩
  · exact (run_eq_error hrun).imp_right Or.inr
  · exact Or.inr (Or.inl (result_eq_error hresult))

theorem result_eq_ok_iff {stack : List Int} {v : Int} : result stack = .ok v ↔ stack = [v] := by
  unfold result
  split
  · simp
  · next h => simpa using h v

theorem evaluate_eq_ok_iff_run {text : List Char} {v : Int} :
    evaluate text = .ok v ↔ run [] (piecesOf text) = .ok [v] := by
  rw [evaluate, bind_eq_ok_iff]
  simp [result_eq_ok_iff]

/-- A run behaves the same on top of other values, which it never touches. -/
theorem run_on_top {stack after : List Int} {pieces : List (List Char)}
    (h : run stack pieces = .ok after) (below : List Int) :
    run (stack ++ below) pieces = .ok (after ++ below) := by
  induction pieces generalizing stack with
  | nil =>
    cases h
    rfl
  | cons piece pieces ih =>
    obtain ⟨next, happly, hrun⟩ := run_cons_eq_ok_iff.mp h
    refine run_cons_eq_ok_iff.mpr ⟨next ++ below, ?_, ih hrun⟩
    rcases apply_eq_ok_iff.mp happly with ⟨n, hn, rfl⟩ |
      ⟨o, left, right, rest, n, rfl, rfl, hn, rfl⟩
    · exact apply_eq_ok_iff.mpr (Or.inl ⟨n, hn, rfl⟩)
    · exact apply_eq_ok_iff.mpr (Or.inr ⟨o, left, right, rest ++ below, n, rfl, rfl, hn, rfl⟩)

/-- Each literal adds a value to the stack and each other piece takes one away. -/
theorem length_run {stack after : List Int} {pieces : List (List Char)}
    (h : run stack pieces = .ok after) :
    after.length + pieces.countP (fun p => !Numeral.isLiteral p) =
      stack.length + pieces.countP Numeral.isLiteral := by
  induction pieces generalizing stack with
  | nil =>
    cases h
    rfl
  | cons piece pieces ih =>
    obtain ⟨next, happly, hrun⟩ := run_cons_eq_ok_iff.mp h
    have hnext := ih hrun
    -- A literal leaves one value more, and an operator, which is no literal, one value less.
    rcases apply_eq_ok_iff.mp happly with ⟨n, hn, rfl⟩ |
      ⟨o, left, right, rest, n, rfl, rfl, hn, rfl⟩
    · have hlit : Numeral.isLiteral piece = true := by simp [Numeral.isLiteral, hn]
      simp only [List.length_cons, List.countP_cons, hlit] at hnext ⊢
      simp only [Bool.not_true, Bool.false_eq_true, if_false, if_true]
      omega
    · have hlit : Numeral.isLiteral [o.char] = false := by simp [Numeral.isLiteral]
      simp only [List.length_cons, List.countP_cons, hlit] at hnext ⊢
      simp only [Bool.not_false, Bool.false_eq_true, if_false, if_true]
      omega

/-- A run that ends has met literals and operators only. -/
theorem literal_or_operator_of_run {stack after : List Int} {pieces : List (List Char)}
    (h : run stack pieces = .ok after) {piece : List Char} (hp : piece ∈ pieces) :
    Numeral.isLiteral piece = true ∨ ∃ o : Operator, piece = [o.char] := by
  induction pieces generalizing stack with
  | nil => cases hp
  | cons q pieces ih =>
    obtain ⟨next, happly, hrun⟩ := run_cons_eq_ok_iff.mp h
    rcases List.mem_cons.mp hp with rfl | hp
    · rcases apply_eq_ok_iff.mp happly with ⟨n, hn, -⟩ | ⟨o, _, _, _, _, ho, -⟩
      · exact Or.inl (by simp [Numeral.isLiteral, hn])
      · exact Or.inr ⟨o, ho⟩
    · exact ih hrun hp

/-! ### Expressions in post-order -/

variable {α : Type}

/-- A run over the pieces of an expression pushes the value of the expression, if each of its
operands pushes its own. -/
theorem run_postOrder {pieces : α → List (List Char)} {value : α → Int} {e : Expr α}
    (h : ∀ a ∈ e.operands, ∀ stack, run stack (pieces a) = .ok (value a :: stack))
    (stack : List Int) :
    run stack (e.postOrder pieces fun o => [[o.char]]).flatten =
      (e.eval value).map (· :: stack) := by
  induction e generalizing stack with
  | operand a =>
    rw [Expr.postOrder, List.flatten_singleton]
    exact h a (by simp [Expr.operands]) stack
  | paren e ih => exact ih h stack
  | binary o left right ihl ihr =>
    have hleft := ihl fun a ha => h a (List.mem_append_left _ ha)
    have hright := ihr fun a ha => h a (List.mem_append_right _ ha)
    rw [Expr.postOrder, List.flatten_append, List.flatten_append, List.flatten_singleton,
      run_append, run_append, hleft, Expr.eval]
    -- The value of the left operand waits below while the pieces of the right operand are read.
    cases left.eval value with
    | error x => rfl
    | ok l =>
      change (run (l :: stack) (right.postOrder pieces fun o => [[o.char]]).flatten >>=
        fun s => run s [[o.char]]) = _
      rw [hright]
      cases right.eval value with
      | error x => rfl
      | ok r =>
        change run (r :: l :: stack) [[o.char]] = (o.apply l r).map (· :: stack)
        rw [run_cons, apply_operator]
        cases o.apply l r <;> rfl

/-- The value that a piece stands for as an operand. -/
def pieceValue (piece : List Char) : Int := (Numeral.literal? piece).getD 0

theorem isLiteral_iff_spellsLiteral {piece : List Char} :
    Numeral.isLiteral piece = true ↔ ∃ n, Numeral.SpellsLiteral piece n := by
  simp only [Numeral.isLiteral, Option.isSome_iff_exists,
    Numeral.literal?_eq_some_iff_spellsLiteral]

/-- The value of an operand is the integer that its integer digits and its sign spell. -/
theorem pieceValue_eq {piece : List Char} {n : Int} (h : Numeral.SpellsLiteral piece n) :
    pieceValue piece = n := by
  rw [pieceValue, Numeral.literal?_eq_some_iff_spellsLiteral.mpr h, Option.getD_some]

/-- The pieces list the expression: its operands are literals, and they and its operators come in
post-order. -/
structure Lists (pieces : List (List Char)) (e : Expr (List Char)) : Prop where
  eq_postOrder : pieces = e.postOrder id fun o => [o.char]
  isLiteral : ∀ p ∈ e.operands, Numeral.isLiteral p = true

/-- Where the operands are the pieces themselves, the listing is a list of single pieces. -/
theorem flatten_postOrder_singleton (e : Expr (List Char)) :
    (e.postOrder (fun p => [p]) fun o => [[o.char]]).flatten =
      e.postOrder id fun o => [o.char] := by
  induction e with
  | operand p => rfl
  | paren e ih => exact ih
  | binary o left right ihl ihr => simp [Expr.postOrder, ihl, ihr]

/-- A run over the pieces of a listed expression pushes its value. -/
theorem Lists.run_eq {pieces : List (List Char)} {e : Expr (List Char)} (h : Lists pieces e)
    (stack : List Int) : run stack pieces = (e.eval pieceValue).map (· :: stack) := by
  rw [h.eq_postOrder, ← flatten_postOrder_singleton]
  refine run_postOrder (fun p hp stack => ?_) stack
  obtain ⟨n, hn⟩ := Option.isSome_iff_exists.mp (h.isLiteral p hp)
  have hvalue : pieceValue p = n := by rw [pieceValue, hn, Option.getD_some]
  rw [run_cons, apply_of_literal hn, hvalue]
  rfl

/-- The pieces list one expression after the other, the topmost last, and the stack holds their
values. -/
inductive Stacked : List Int → List (List Char) → Prop
  | nil : Stacked [] []
  | cons {stack : List Int} {pieces listing : List (List Char)} {e : Expr (List Char)} {n : Int} :
      Stacked stack pieces → Lists listing e → e.eval pieceValue = .ok n →
      Stacked (n :: stack) (pieces ++ listing)

/-- One more piece lists one expression more, or joins the two topmost expressions. -/
theorem Stacked.apply {stack after : List Int} {pieces : List (List Char)} {piece : List Char}
    (h : Stacked stack pieces) (happly : apply stack piece = .ok after) :
    Stacked after (pieces ++ [piece]) := by
  rcases apply_eq_ok_iff.mp happly with ⟨n, hn, rfl⟩ | ⟨o, left, right, rest, n, rfl, rfl, hn, rfl⟩
  · have hlists : Lists [piece] (.operand piece) :=
      ⟨rfl, by simp [Expr.operands, Numeral.isLiteral, hn]⟩
    exact .cons h hlists (by rw [Expr.eval, pieceValue, hn, Option.getD_some])
  · -- The listings of the two topmost expressions stand next to each other, the right one last.
    cases h with
    | @cons _ piecesl listr er _ h hr hvr =>
      cases h with
      | @cons _ pieces listl el _ h hl hvl =>
        have hlists : Lists (listl ++ listr ++ [[o.char]]) (.binary o el er) := by
          refine ⟨?_, fun p hp => ?_⟩
          · rw [hl.eq_postOrder, hr.eq_postOrder]
            rfl
          · rcases List.mem_append.mp hp with hp | hp
            · exact hl.isLiteral p hp
            · exact hr.isLiteral p hp
        have hvalue : (Expr.binary o el er).eval pieceValue = .ok n := by
          rw [Expr.eval, hvl, hvr]
          exact hn
        simpa only [List.append_assoc] using Stacked.cons h hlists hvalue

/-- What a run leaves on the stack are the values of the expressions that its pieces list. -/
theorem stacked_of_run {stack after : List Int} {before pieces : List (List Char)}
    (h : Stacked stack before) (hrun : run stack pieces = .ok after) :
    Stacked after (before ++ pieces) := by
  induction pieces generalizing stack before with
  | nil =>
    cases hrun
    rwa [List.append_nil]
  | cons piece pieces ih =>
    obtain ⟨next, happly, hrest⟩ := run_cons_eq_ok_iff.mp hrun
    have := ih (h.apply happly) hrest
    rwa [List.append_assoc, List.singleton_append] at this

/-- A run leaves a single value exactly if its pieces list an expression with that value. -/
theorem run_eq_ok_singleton_iff {pieces : List (List Char)} {v : Int} :
    run [] pieces = .ok [v] ↔ ∃ e, Lists pieces e ∧ e.eval pieceValue = .ok v := by
  constructor
  · intro h
    have hstacked := stacked_of_run .nil h
    rw [List.nil_append] at hstacked
    cases hstacked with
    | @cons _ before listing e _ hbelow hlists hvalue =>
      cases hbelow
      exact ⟨e, hlists, hvalue⟩
  · rintro ⟨e, hlists, hvalue⟩
    rw [hlists.run_eq, hvalue]
    rfl

/-- A text has a value exactly if its pieces list an expression with that value. -/
theorem evaluate_eq_ok_iff {text : List Char} {v : Int} :
    evaluate text = .ok v ↔ ∃ e, Lists (piecesOf text) e ∧ e.eval pieceValue = .ok v := by
  rw [evaluate_eq_ok_iff_run, run_eq_ok_singleton_iff]

end Postfix

end DeskCalc
