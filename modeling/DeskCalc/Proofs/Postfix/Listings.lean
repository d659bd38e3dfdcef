import DeskCalc.Proofs.Postfix.Run

/-!
# What a postfix text lists

The pieces of a postfix text list expressions in post-order, one behind the other, until a piece
comes that cannot be applied. While they do, the stack holds the values of these expressions, so a
text has a value if it lists one expression, and lacks or leaves a value if it lists none or
several. The first piece with which the pieces no longer list expressions decides how the text is
refused: a quotient whose right operand is zero divides by zero, and anything else is an operator
without its two operands or no operator at all.

## Main definitions

* `Postfix.ListsAll` — the pieces list expressions that all have a value
* `Postfix.FailsAt` — the first piece with which they do not

## Main results

* `run_eq_ok_iff` — a run leaves the values of the expressions that its pieces list
* `listsAll_or_failsAt` — pieces list expressions, or fail to at some piece
* `evaluate_eq_of_listings` — the value or the refusal of every postfix text
-/

namespace DeskCalc.Postfix

/-- The pieces list the expressions one behind the other. Their operands are literals, and no
division in them has divisor zero. Parentheses leave no trace in a listing. -/
structure ListsAll (pieces : List (List Char)) (es : List (Expr (List Char))) : Prop where
  eq_flatMap : pieces = es.flatMap fun e => e.postOrder id fun o => [o.char]
  isLiteral : ∀ e ∈ es, ∀ p ∈ e.operands, Numeral.isLiteral p = true
  not_hasZeroDivisor : ∀ e ∈ es, ¬ e.HasZeroDivisor pieceValue

/-- The pieces up to `before` list expressions, and those up to and including `piece` list none. -/
structure FailsAt (pieces before : List (List Char)) (piece : List Char)
    (es : List (Expr (List Char))) : Prop where
  exists_eq : ∃ behind, pieces = before ++ piece :: behind
  listsAll : ListsAll before es
  not_listsAll : ∀ more, ¬ ListsAll (before ++ [piece]) more

/-! ### Listings and the stack -/

theorem eval_eq_ok_of_not_hasZeroDivisor {e : Expr (List Char)}
    (h : ¬ e.HasZeroDivisor pieceValue) : ∃ n, e.eval pieceValue = .ok n := by
  cases hvalue : e.eval pieceValue with
  | error err => exact absurd (Expr.eval_eq_error_iff.mp hvalue).1 h
  | ok n => exact ⟨n, rfl⟩

theorem not_hasZeroDivisor_of_eval {e : Expr (List Char)} {n : Int}
    (h : e.eval pieceValue = .ok n) : ¬ e.HasZeroDivisor pieceValue := by
  intro hzero
  rw [Expr.eval_eq_error_iff.mpr ⟨hzero, rfl⟩] at h
  cases h

/-- Where expressions have been listed, their values are on the stack. -/
theorem Stacked.exists_listsAll {stack : List Int} {pieces : List (List Char)}
    (h : Stacked stack pieces) : ∃ es, ListsAll pieces es ∧
      es.map (Expr.eval pieceValue) = stack.reverse.map Except.ok := by
  induction h with
  | nil => exact ⟨[], ⟨rfl, by simp, by simp⟩, rfl⟩
  | @cons stack pieces listing e n _ hlists hvalue ih =>
    obtain ⟨es, hes, hvalues⟩ := ih
    refine ⟨es ++ [e], ⟨?_, ?_, ?_⟩, by simp [hvalues, hvalue]⟩
    · rw [List.flatMap_append, List.flatMap_singleton, ← hes.eq_flatMap, ← hlists.eq_postOrder]
    · intro e' he'
      rcases List.mem_append.mp he' with he' | he'
      · exact hes.isLiteral e' he'
      · rw [List.mem_singleton.mp he']
        exact hlists.isLiteral
    · intro e' he'
      rcases List.mem_append.mp he' with he' | he'
      · exact hes.not_hasZeroDivisor e' he'
      · rw [List.mem_singleton.mp he']
        exact not_hasZeroDivisor_of_eval hvalue

/-- A run over listings pushes the values of the expressions, the last one on top. -/
theorem ListsAll.exists_run {pieces : List (List Char)} {es : List (Expr (List Char))}
    (h : ListsAll pieces es) (stack : List Int) :
    ∃ values : List Int, es.map (Expr.eval pieceValue) = values.map Except.ok ∧
      run stack pieces = .ok (values.reverse ++ stack) := by
  obtain ⟨rfl, hliteral, hzero⟩ := h
  induction es generalizing stack with
  | nil => exact ⟨[], rfl, rfl⟩
  | cons e es ih =>
    obtain ⟨n, hn⟩ := eval_eq_ok_of_not_hasZeroDivisor (hzero e List.mem_cons_self)
    have hrun := Lists.run_eq ⟨rfl, hliteral e List.mem_cons_self⟩ stack
    obtain ⟨values, hvalues, hrest⟩ := ih (n :: stack)
      (fun e' he' => hliteral e' (List.mem_cons_of_mem e he'))
      (fun e' he' => hzero e' (List.mem_cons_of_mem e he'))
    refine ⟨n :: values, by simp [hn, hvalues], ?_⟩
    rw [List.flatMap_cons, run_append, hrun, hn]
    change run (n :: stack) _ = _
    rw [hrest]
    simp

/-- A run leaves a stack exactly if its pieces list expressions with the values on it. -/
theorem run_eq_ok_iff {pieces : List (List Char)} {stack : List Int} :
    run [] pieces = .ok stack ↔ ∃ es, ListsAll pieces es ∧
      es.map (Expr.eval pieceValue) = stack.reverse.map Except.ok := by
  constructor
  · intro h
    simpa using (stacked_of_run .nil h).exists_listsAll
  · rintro ⟨es, hes, hvalues⟩
    obtain ⟨values, hvalues', hrun⟩ := hes.exists_run []
    -- The expressions have only one list of values.
    have heq : values = stack.reverse :=
      (List.map_inj_right fun _ _ => Except.ok.inj).mp (hvalues'.symm.trans hvalues)
    rw [hrun, heq, List.reverse_reverse, List.append_nil]

theorem length_eq_of_map_eval {es : List (Expr (List Char))} {stack : List Int}
    (h : es.map (Expr.eval pieceValue) = stack.reverse.map Except.ok) :
    es.length = stack.length := by
  simpa using congrArg List.length h

/-! ### The first failure -/

/-- A refused run is refused at one of its pieces, at the stack that the pieces before it leave. -/
theorem exists_of_run_eq_error {stack : List Int} {pieces : List (List Char)} {e : CalcError}
    (h : run stack pieces = .error e) : ∃ before piece behind mid,
      pieces = before ++ piece :: behind ∧ run stack before = .ok mid ∧
        apply mid piece = .error e := by
  induction pieces generalizing stack with
  | nil => cases h
  | cons piece pieces ih =>
    rw [run_cons, bind_eq_error_iff] at h
    rcases h with happly | ⟨next, happly, hrun⟩
    · exact ⟨[], piece, pieces, stack, rfl, rfl, happly⟩
    · obtain ⟨before, failing, behind, mid, rfl, hbefore, hfails⟩ := ih hrun
      exact ⟨piece :: before, failing, behind, mid, rfl,
        run_cons_eq_ok_iff.mpr ⟨next, happly, hbefore⟩, hfails⟩

/-- The pieces fail to list expressions at a piece that cannot be applied to the values of those
listed so far. -/
theorem failsAt_iff {pieces before : List (List Char)} {piece : List Char}
    {es : List (Expr (List Char))} : FailsAt pieces before piece es ↔
      (∃ behind, pieces = before ++ piece :: behind) ∧ ListsAll before es ∧
        ∃ stack e, es.map (Expr.eval pieceValue) = stack.reverse.map Except.ok ∧
          run [] before = .ok stack ∧ apply stack piece = .error e := by
  have hconcat : ∀ {stack}, run [] before = .ok stack →
      run [] (before ++ [piece]) = apply stack piece := by
    intro stack hrun
    rw [run_append, hrun]
    change run stack [piece] = _
    rw [run_cons]
    cases apply stack piece <;> rfl
  constructor
  · rintro ⟨hexists, hes, hnot⟩
    obtain ⟨values, hvalues, hrun⟩ := hes.exists_run []
    rw [List.append_nil] at hrun
    refine ⟨hexists, hes, values.reverse, ?_⟩
    cases happly : apply values.reverse piece with
    | error e => exact ⟨e, by rw [List.reverse_reverse]; exact hvalues, hrun, rfl⟩
    | ok after =>
      obtain ⟨more, hmore, -⟩ := run_eq_ok_iff.mp ((hconcat hrun).trans happly)
      exact absurd hmore (hnot more)
  · rintro ⟨hexists, hes, stack, e, -, hrun, happly⟩
    refine ⟨hexists, hes, fun more hmore => ?_⟩
    obtain ⟨values, -, hrun'⟩ := hmore.exists_run []
    rw [hconcat hrun, happly] at hrun'
    cases hrun'

/-- Pieces list expressions, or fail to at some piece. -/
theorem listsAll_or_failsAt (pieces : List (List Char)) :
    (∃ es, ListsAll pieces es) ∨ ∃ before piece es, FailsAt pieces before piece es := by
  cases h : run [] pieces with
  | ok stack =>
    obtain ⟨es, hes, -⟩ := run_eq_ok_iff.mp h
    exact Or.inl ⟨es, hes⟩
  | error e =>
    obtain ⟨before, piece, behind, mid, heq, hbefore, happly⟩ := exists_of_run_eq_error h
    obtain ⟨es, hes, hvalues⟩ := run_eq_ok_iff.mp hbefore
    exact Or.inr ⟨before, piece, es,
      failsAt_iff.mpr ⟨⟨behind, heq⟩, hes, mid, e, hvalues, hbefore, happly⟩⟩

/-! ### Every postfix text -/

theorem evaluate_of_run {text : List Char} {stack : List Int}
    (h : run [] (piecesOf text) = .ok stack) : evaluate text = result stack := by
  rw [evaluate, h]
  rfl

theorem evaluate_of_run_eq_error {text : List Char} {e : CalcError}
    (h : run [] (piecesOf text) = .error e) : evaluate text = .error e := by
  rw [evaluate, h]
  rfl

/-- A text leaves no value, or several, exactly if it does not list one expression alone. -/
theorem evaluate_eq_unknownVariable_iff {text : List Char} :
    evaluate text = .error .unknownVariable ↔
      ∃ es, ListsAll (piecesOf text) es ∧ es.length ≠ 1 := by
  constructor
  · intro h
    rw [evaluate, bind_eq_error_iff] at h
    rcases h with hrun | ⟨stack, hrun, hresult⟩
    · rcases run_eq_error hrun with he | he <;> cases he
    · obtain ⟨es, hes, hvalues⟩ := run_eq_ok_iff.mp hrun
      refine ⟨es, hes, fun hlength => ?_⟩
      rw [length_eq_of_map_eval hvalues] at hlength
      obtain ⟨n, rfl⟩ := List.length_eq_one_iff.mp hlength
      cases hresult
  · rintro ⟨es, hes, hlength⟩
    obtain ⟨values, hvalues, hrun⟩ := hes.exists_run []
    rw [List.append_nil] at hrun
    rw [evaluate_of_run hrun]
    refine result_of_length_ne_one fun hone => hlength ?_
    rw [length_eq_of_map_eval (by rwa [List.reverse_reverse]), hone]

/-- The piece is the operator of a quotient, and the last of at least two listed expressions, its
divisor, has value zero. -/
def DividesByZero (es : List (Expr (List Char))) (piece : List Char) : Prop :=
  piece = [Operator.div.char] ∧ 2 ≤ es.length ∧
    es.getLast?.map (Expr.eval pieceValue) = some (.ok 0)

/-- The values of at least two listed expressions, the last one zero, are on the stack. -/
theorem exists_stack_iff {es : List (Expr (List Char))} {stack : List Int}
    (h : es.map (Expr.eval pieceValue) = stack.reverse.map Except.ok) :
    (2 ≤ es.length ∧ es.getLast?.map (Expr.eval pieceValue) = some (.ok 0)) ↔
      ∃ left rest, stack = 0 :: left :: rest := by
  have hlast : es.getLast?.map (Expr.eval pieceValue) = stack.head?.map Except.ok := by
    rw [← List.getLast?_map, h, List.getLast?_map, List.getLast?_reverse]
  rw [hlast, length_eq_of_map_eval h]
  rcases stack with _ | ⟨right, _ | ⟨left, rest⟩⟩ <;> simp

/-- A text fails at the first piece that cannot be applied: with a division by zero if this is a
quotient whose divisor has value zero, and as an invalid expression if two expressions are missing
or the piece is no operator. -/
theorem evaluate_of_failsAt {text : List Char} {before : List (List Char)} {piece : List Char}
    {es : List (Expr (List Char))} (h : FailsAt (piecesOf text) before piece es) :
    (DividesByZero es piece → evaluate text = .error .divisionByZero) ∧
      (¬ DividesByZero es piece → evaluate text = .error .invalidExpression ∧
        (es.length < 2 ∨ ∀ o : Operator, piece ≠ [o.char])) := by
  obtain ⟨⟨behind, heq⟩, hes, stack, e, hvalues, hbefore, happly⟩ := failsAt_iff.mp h
  have hevaluate : evaluate text = .error e := by
    refine evaluate_of_run_eq_error ?_
    rw [heq, run_append, hbefore]
    change run stack (piece :: behind) = _
    rw [run_cons, happly]
    rfl
  have hdivides : DividesByZero es piece ↔
      piece = [Operator.div.char] ∧ ∃ left rest, stack = 0 :: left :: rest := by
    rw [DividesByZero, exists_stack_iff hvalues]
  rw [hdivides, hevaluate, length_eq_of_map_eval hvalues]
  rcases (apply_eq_error_iff.mp happly).2 with ⟨left, rest, rfl, rfl, rfl⟩ | ⟨hshort, rfl⟩
  · exact ⟨fun _ => rfl, fun hnot => absurd ⟨rfl, left, rest, rfl⟩ hnot⟩
  · refine ⟨?_, fun _ => ⟨rfl, hshort⟩⟩
    rintro ⟨rfl, left, rest, rfl⟩
    rcases hshort with hshort | hshort
    · simp only [List.length_cons] at hshort
      omega
    · exact absurd rfl (hshort .div)

/-- The value or the refusal of every postfix text, read off what its pieces list. It has a value if
they list one expression without a zero divisor, and then the value of this expression. It is
refused as an unknown variable if they list none or several. Any other text fails at the first piece
with which the pieces list no expressions any more: with a division by zero if the piece is a
quotient of at least two listed expressions of which the last is zero, and otherwise as an invalid
expression, because two expressions are missing or the piece is no operator. -/
theorem evaluate_eq_of_listings (text : List Char) :
    (∀ v, evaluate text = .ok v ↔ ∃ e, Lists (piecesOf text) e ∧
        ¬ e.HasZeroDivisor pieceValue ∧ e.eval pieceValue = .ok v) ∧
      (evaluate text = .error .unknownVariable ↔
        ∃ es, ListsAll (piecesOf text) es ∧ es.length ≠ 1) ∧
      ((∃ es, ListsAll (piecesOf text) es) ∨
        ∃ before piece es, FailsAt (piecesOf text) before piece es) ∧
      ∀ before piece es, FailsAt (piecesOf text) before piece es →
        (DividesByZero es piece → evaluate text = .error .divisionByZero) ∧
          (¬ DividesByZero es piece → evaluate text = .error .invalidExpression ∧
            (es.length < 2 ∨ ∀ o : Operator, piece ≠ [o.char])) := by
  refine ⟨fun v => ?_, evaluate_eq_unknownVariable_iff, listsAll_or_failsAt _,
    fun before piece es h => evaluate_of_failsAt h⟩
  rw [evaluate_eq_ok_iff]
  constructor
  · rintro ⟨e, hlists, hvalue⟩
    exact ⟨e, hlists, not_hasZeroDivisor_of_eval hvalue, hvalue⟩
  · rintro ⟨e, hlists, -, hvalue⟩
    exact ⟨e, hlists, hvalue⟩

/-- One space is as good as two, the fraction of an operand does not count, and the quotient drops
its own. A divisor of zero is met before the sum behind it. -/
theorem evaluate_eq_of_listings_quotients :
    CutAtSpaces "7  -2.9 /".toList [['7'], ['-', '2', '.', '9'], ['/']] ∧
      Numeral.SpellsLiteral ['-', '2', '.', '9'] (-2) ∧
      evaluate "7  -2.9 /".toList = .ok (-3) ∧
      FailsAt (piecesOf "1 2 0 / +".toList) [['1'], ['2'], ['0']] ['/']
        [.operand ['1'], .operand ['2'], .operand ['0']] ∧
      evaluate "1 2 0 / +".toList = .error .divisionByZero := by
  have hcut : CutAtSpaces "7  -2.9 /".toList [['7'], ['-', '2', '.', '9'], ['/']] :=
    @CutAtSpaces.piece ['7'] _ _ (by decide) (by decide) (.space
      (@CutAtSpaces.piece ['-', '2', '.', '9'] _ _ (by decide) (by decide)
        (.last (by decide) (by decide))))
  have hseven : Numeral.SpellsLiteral ['7'] 7 := Or.inl ⟨['7'], by decide, Or.inl ⟨rfl, rfl⟩⟩
  have htwo : Numeral.SpellsLiteral ['-', '2', '.', '9'] (-2) :=
    Or.inr ⟨['-', '2'], ['9'], rfl, by decide, ['2'], by decide, Or.inr ⟨rfl, rfl⟩⟩
  have hlists : Lists (piecesOf "7  -2.9 /".toList)
      (.binary .div (.operand ['7']) (.operand ['-', '2', '.', '9'])) :=
    ⟨(cutAtSpaces_iff.mp hcut).symm, List.forall_mem_cons.mpr
      ⟨isLiteral_iff_spellsLiteral.mpr ⟨7, hseven⟩,
        List.forall_mem_singleton.mpr (isLiteral_iff_spellsLiteral.mpr ⟨-2, htwo⟩)⟩⟩
  have hvalue : (Expr.binary .div (.operand ['7']) (.operand ['-', '2', '.', '9'])).eval
      pieceValue = .ok (-3) := by
    change Operator.div.apply (pieceValue ['7']) (pieceValue ['-', '2', '.', '9']) = _
    rw [pieceValue_eq hseven, pieceValue_eq htwo, Operator.apply_div (by decide)]
    rfl
  -- The three values are on the stack where the quotient comes, the divisor on top.
  have hlistsAll : ListsAll [['1'], ['2'], ['0']]
      [.operand ['1'], .operand ['2'], .operand ['0']] :=
    ⟨rfl, by decide, by simp [Expr.HasZeroDivisor]⟩
  have hfails : FailsAt (piecesOf "1 2 0 / +".toList) [['1'], ['2'], ['0']] ['/']
      [.operand ['1'], .operand ['2'], .operand ['0']] :=
    failsAt_iff.mpr ⟨⟨[['+']], by decide +kernel⟩, hlistsAll, [0, 2, 1], .divisionByZero, rfl, rfl,
      rfl⟩
  refine ⟨hcut, htwo, ?_, hfails, ?_⟩
  · exact ((evaluate_eq_of_listings _).1 (-3)).mpr
      ⟨_, hlists, not_hasZeroDivisor_of_eval hvalue, hvalue⟩
  · exact ((evaluate_eq_of_listings _).2.2.2 _ _ _ hfails).1 ⟨rfl, by decide, rfl⟩

end DeskCalc.Postfix
