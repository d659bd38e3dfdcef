import DeskCalc.Proofs.Calculator.Assignments
import DeskCalc.Proofs.Calculator.Lines
import DeskCalc.Proofs.Session.Bare
import DeskCalc.Proofs.Session.Turn

/-!
# The outcomes of a line

Every line ends in one of few ways. A command ends the session or shows one of two texts, and the
store stays as it is. An assignment shows nothing or is refused in one of two ways, and an
expression shows an integer or is refused in one of three. Nothing breaks down on the way, so no
statement is answered as one that has.

## Main definitions

* `Reply.AnswersCommand`, `Reply.AnswersAssignment`, `Reply.AnswersExpression` — the answers that
  the three kinds of lines may get

## Main results

* `answersCommand_respond`, `answersAssignment_respond`, `answersExpression_respond` — each kind of
  line gets one of its answers
* `bare_ne_breakdown` — no step of the calculator breaks down
* `respond_outcomes` — the answers to all lines
-/

namespace DeskCalc.Session

namespace Reply

/-- The answers to a command: the end of the session, the help text, or the text for any other. -/
def AnswersCommand (settings : Settings) (line : String) (r : Reply) : Prop :=
  line = "/exit" ∧ r = .exit ∨
    line = "/help" ∧ r = .answer true (some settings.helpText) ∨
      line ≠ "/exit" ∧ line ≠ "/help" ∧ r = .answer true (some settings.unknownCommand)

/-- The answers to an assignment. -/
def AnswersAssignment (r : Reply) : Prop :=
  r = .answer true none ∨
    r = .answer false (some "Invalid identifier") ∨ r = .answer false (some "Unknown variable")

/-- The answers to an expression. -/
def AnswersExpression (r : Reply) : Prop :=
  (∃ n : Int, r = .answer true (some (String.ofList (Numeral.render n)))) ∨
    r = .answer false (some "Invalid expression") ∨ r = .answer false (some "Unknown variable") ∨
      r = .answer false (some "Division by zero")

/-- The text for a breakdown tells itself by its first letters. -/
theorem answer_ne_breakdown {s : String} (h : s.toList.take 3 ≠ "Unh".toList) (b accepted : Bool)
    (text : String) : answer b (some s) ≠ answer accepted (some ("Unhandled error: " ++ text)) := by
  intro heq
  obtain ⟨-, hs⟩ := answer.inj heq
  refine h ?_
  rw [Option.some.inj hs, String.toList_append]
  rfl

theorem AnswersCommand.accepted_eq_true {settings : Settings} {line : String} {accepted : Bool}
    {output : Option String} (h : (answer accepted output).AnswersCommand settings line) :
    accepted = true := by
  rcases h with ⟨-, h⟩ | ⟨-, h⟩ | ⟨-, -, h⟩
  · cases h
  · exact (answer.inj h).1
  · exact (answer.inj h).1

theorem AnswersAssignment.ne_breakdown {r : Reply} (h : r.AnswersAssignment) (accepted : Bool)
    (text : String) : r ≠ answer accepted (some ("Unhandled error: " ++ text)) := by
  rcases h with rfl | rfl | rfl
  · intro heq
    cases heq
  · exact answer_ne_breakdown (by decide) _ _ _
  · exact answer_ne_breakdown (by decide) _ _ _

/-- No expression is answered as a breakdown, whose text is not the decimal text of an integer. -/
theorem AnswersExpression.ne_breakdown {r : Reply} (h : r.AnswersExpression) (accepted : Bool)
    (text : String) : r ≠ answer accepted (some ("Unhandled error: " ++ text)) := by
  rcases h with ⟨n, rfl⟩ | rfl | rfl | rfl
  · refine answer_ne_breakdown ?_ _ _ _
    rw [String.toList_ofList]
    intro htake
    -- A decimal text holds no letter.
    have hmem : 'U' ∈ (Numeral.render n).take 3 := by
      rw [htake]
      exact List.mem_cons_self
    rcases Numeral.eq_minus_or_isDigit_of_mem_render (List.mem_of_mem_take hmem) with hU | hU <;>
      cases hU
  · exact answer_ne_breakdown (by decide) _ _ _
  · exact answer_ne_breakdown (by decide) _ _ _
  · exact answer_ne_breakdown (by decide) _ _ _

end Reply

/-! ### The answers to the three kinds of lines -/

variable {settings : Settings} {store : Store} {line : String}

/-- The answer to a command. -/
theorem answersCommand_respond (h : isCommand line = true) :
    (respond settings store line).reply.AnswersCommand settings line := by
  rw [respond, respondWith_command h]
  dsimp only
  unfold command
  split
  · next hexit => exact Or.inl ⟨hexit, rfl⟩
  · next hexit =>
    split
    · next hhelp => exact Or.inr (Or.inl ⟨hhelp, rfl⟩)
    · next hhelp => exact Or.inr (Or.inr ⟨hexit, hhelp, rfl⟩)

/-- The answer to an assignment. -/
theorem answersAssignment_respond (h : isCommand line = false)
    (hassignment : Calculator.isAssignment line = true) :
    (respond settings store line).reply.AnswersAssignment := by
  have hexecute := Calculator.execute_of_isAssignment hassignment store
  cases hread : Assignment.read store line with
  | ok a =>
    rw [hread] at hexecute
    rw [respond_of_ok h hexecute]
    exact Or.inl rfl
  | error e =>
    rw [hread] at hexecute
    rw [respond_of_error h hexecute]
    rcases Assignment.read_eq_error hread with rfl | rfl
    · exact Or.inr (Or.inl rfl)
    · exact Or.inr (Or.inr rfl)

/-- The answer to an expression. -/
theorem answersExpression_respond (h : isCommand line = false)
    (hassignment : Calculator.isAssignment line = false) :
    (respond settings store line).reply.AnswersExpression := by
  have hexecute := Calculator.execute_of_not_isAssignment hassignment store
  cases hvalue : Calculator.evaluate store line with
  | ok n =>
    rw [hvalue] at hexecute
    rw [respond_of_ok h hexecute]
    exact Or.inl ⟨n, rfl⟩
  | error e =>
    rw [hvalue] at hexecute
    rw [respond_of_error h hexecute]
    rcases Calculator.evaluate_eq_error hvalue with rfl | rfl | rfl
    · exact Or.inr (Or.inl rfl)
    · exact Or.inr (Or.inr (Or.inl rfl))
    · exact Or.inr (Or.inr (Or.inr rfl))

/-! ### Nothing breaks down -/

/-- Carrying out a statement on bare texts never breaks down. -/
theorem bare_ne_breakdown (store : Store) (line text : String) :
    (bare store line).outcome ≠ .error (.breakdown text) := by
  rw [bare_eq_standard, standard]
  intro h
  cases hexecute : Calculator.execute store line with
  | ok effect =>
    rw [hexecute] at h
    cases h
  | error e =>
    rw [hexecute] at h
    cases h

/-- No statement is answered as a breakdown, and a command only if the settings have such a text. -/
theorem isCommand_of_breakdown_message {accepted : Bool} {text : String}
    (h : (respond settings store line).reply =
      .answer accepted (some ("Unhandled error: " ++ text))) :
    isCommand line = true ∧ accepted = true := by
  cases hcommand : isCommand line with
  | true =>
    have hanswer := @answersCommand_respond settings store line hcommand
    rw [h] at hanswer
    exact ⟨rfl, hanswer.accepted_eq_true⟩
  | false =>
    cases hassignment : Calculator.isAssignment line with
    | true =>
      exact absurd h ((answersAssignment_respond hcommand hassignment).ne_breakdown _ _)
    | false =>
      exact absurd h ((answersExpression_respond hcommand hassignment).ne_breakdown _ _)

/-- Every line ends in one of its answers. A command never touches the store. Only a command can be
answered with the text for a breakdown, where the settings have such a text. The calculator on bare
texts gives the same answers, stores and records, and never breaks down. -/
theorem respond_outcomes (settings : Settings) (store : Store) (line : String) :
    (if isCommand line then
        (respond settings store line).reply.AnswersCommand settings line ∧
          (respond settings store line).store = store
      else if Calculator.isAssignment line then
        (respond settings store line).reply.AnswersAssignment
      else (respond settings store line).reply.AnswersExpression) ∧
    (∀ accepted text, (respond settings store line).reply =
        .answer accepted (some ("Unhandled error: " ++ text)) →
      isCommand line = true ∧ accepted = true) ∧
    respondWith bare settings store line = respond settings store line ∧
    ∀ text, (bare store line).outcome ≠ .error (.breakdown text) := by
  refine ⟨?_, fun accepted text => isCommand_of_breakdown_message, ?_, bare_ne_breakdown store line⟩
  · split
    · next h =>
      refine ⟨answersCommand_respond h, ?_⟩
      rw [respond, respondWith_command h]
    · next h =>
      have h := Bool.eq_false_iff.mpr h
      split
      · next hassignment => exact answersAssignment_respond h hassignment
      · next hassignment => exact answersExpression_respond h (Bool.eq_false_iff.mpr hassignment)
  · rw [bare_eq_standard, respond]

end DeskCalc.Session
