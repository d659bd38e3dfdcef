import DeskCalc.Session

/-!
# One input of a session

All that an input can do follows from the line that it puts to the calculator: an interrupt and a
blank line put none. The exit command ends the session. Any other line is answered against the store
that it meets, and what is printed, written to the journal and kept in the store is read off the
answer.

## Main definitions

* `Input.query?` — the line that an input puts to the calculator
* `Input.isExit` — the input that ends a session
* `Input.reply?`, `Input.storeAfter`, `Input.records`, `Input.echo` — what an input leads to

## Main results

* `respondWith_of_ok`, `respondWith_of_error` — the answer to a statement under any engine
* `respond_of_ok`, `respond_of_error` — the answer of the calculator to a statement
* `reply_respondWith_eq_exit_iff` — only the exit command asks for the end
* `take_eq` — an input other than the exit leads to what it prints, keeps and records
-/

namespace DeskCalc.Session

/-! ### Answers to lines -/

/-- The text shown for a failure. -/
def Failure.message : Failure → String
  | refused e => e.message
  | breakdown text => "Unhandled error: " ++ text

/-- The record of a line that has failed. -/
def Failure.record (line : String) : Failure → Record
  | refused e =>
    ⟨.debug, "Rejected " ++ String.ofList (Text.quoted line.toList) ++ ": " ++ e.message⟩
  | breakdown _ =>
    ⟨.error, "Unexpected error while evaluating " ++ String.ofList (Text.quoted line.toList)⟩

section Answers

variable {engine : Engine} {settings : Settings} {store : Store} {line : String}

/-- A statement that is carried out is accepted with the output of its effect. -/
theorem respondWith_of_ok {effect : Calculator.Effect} (h : isCommand line = false)
    (heffect : (engine store line).outcome = .ok effect) :
    respondWith engine settings store line =
      ⟨.answer true effect.output?, effect.applyTo store, (engine store line).records⟩ := by
  rw [respondWith, if_neg (Bool.not_eq_true _ ▸ h)]
  simp only [heffect]

/-- A statement that fails is not accepted, shows the message of its failure, and leaves the store
as it was. -/
theorem respondWith_of_error {f : Failure} (h : isCommand line = false)
    (hfailure : (engine store line).outcome = .error f) :
    respondWith engine settings store line =
      ⟨.answer false (some f.message), store,
        (engine store line).records ++ [f.record line]⟩ := by
  rw [respondWith, if_neg (Bool.not_eq_true _ ▸ h)]
  dsimp only
  rw [hfailure]
  cases f <;> rfl

/-- Only the exit command asks for the end of the session. -/
theorem reply_respondWith_eq_exit_iff :
    (respondWith engine settings store line).reply = .exit ↔ line = "/exit" := by
  cases hcommand : isCommand line with
  | true =>
    rw [respondWith_command hcommand]
    exact command_eq_exit_iff
  | false =>
    have hne : line ≠ "/exit" := by
      rintro rfl
      exact absurd hcommand (by decide)
    cases houtcome : (engine store line).outcome with
    | ok effect => simp [respondWith_of_ok hcommand houtcome, hne]
    | error f => simp [respondWith_of_error hcommand houtcome, hne]

end Answers

section Statements

variable {store : Store} {line : String}

/-- A statement that the calculator executes is accepted with the output of its effect. -/
theorem respond_of_ok {effect : Calculator.Effect} (h : isCommand line = false)
    (hexecute : Calculator.execute store line = .ok effect) (settings : Settings) :
    respond settings store line =
      ⟨.answer true effect.output?, effect.applyTo store, Calculator.journal store line⟩ := by
  have houtcome : (standard store line).outcome = .ok effect := by
    rw [standard, hexecute]
    rfl
  rw [respond, respondWith_of_ok h houtcome]
  rfl

/-- A statement that the calculator refuses shows the message of the refusal and leaves the store as
it was. -/
theorem respond_of_error {e : CalcError} (h : isCommand line = false)
    (hexecute : Calculator.execute store line = .error e) (settings : Settings) :
    respond settings store line =
      ⟨.answer false (some e.message), store,
        Calculator.journal store line ++ [Failure.record line (.refused e)]⟩ := by
  have houtcome : (standard store line).outcome = .error (.refused e) := by
    rw [standard, hexecute]
    rfl
  rw [respond, respondWith_of_error h houtcome]
  rfl

end Statements

/-- What an answer has printed. -/
def Reply.output? : Reply → Option String
  | exit => none
  | answer _ output => output

/-! ### What an input leads to -/

namespace Input

/-- The line that an input puts to the calculator. It is trimmed; an interrupt and a blank line put
none. -/
def query? : Input → Option String
  | interrupt => none
  | line text =>
    if Text.trim text.toList = [] then none else some (String.ofList (Text.trim text.toList))

/-- The input that ends a session: a line that trims to the exit command. -/
def isExit : Input → Bool
  | interrupt => false
  | line text => Text.trim text.toList == "/exit".toList

variable (settings : Settings) (store : Store)

/-- The answer to the line that an input puts, with the store and the records that come with it. -/
def turn? (i : Input) : Option Turn := i.query?.map (respond settings store)

/-- The reply to the line that an input puts. -/
def reply? (i : Input) : Option Reply := (i.turn? settings store).map Turn.reply

/-- The store after an input. -/
def storeAfter (i : Input) : Store := ((i.turn? settings store).map Turn.store).getD store

/-- The records that an input writes. -/
def records (i : Input) : List Record := ((i.turn? settings store).map Turn.records).getD []

/-- The lines printed for an input. -/
def printed : Input → List String
  | interrupt => ["^C"]
  | line text => (((line text).reply? settings store).bind Reply.output?).toList

/-- The text that an input adds to the printed text. An interrupt shows itself; a line shows what is
put out for it, followed by a line end, and nothing if nothing is put out. -/
def echo : Input → String
  | interrupt => "^C\n"
  | line text =>
    match ((line text).reply? settings store).bind Reply.output? with
    | some output => output ++ "\n"
    | none => ""

variable {settings store}

theorem echo_eq (i : Input) :
    i.echo settings store = String.join ((i.printed settings store).map (· ++ "\n")) := by
  cases i with
  | interrupt => rfl
  | line text =>
    rw [echo, printed]
    cases ((line text).reply? settings store).bind Reply.output? with
    | none => rfl
    | some output => simp

@[simp] theorem query?_interrupt : interrupt.query? = none := rfl

theorem query?_of_blank {text : String} (h : Text.trim text.toList = []) :
    (line text).query? = none := by
  rw [query?, if_pos h]

theorem query?_of_not_blank {text : String} (h : Text.trim text.toList ≠ []) :
    (line text).query? = some (String.ofList (Text.trim text.toList)) := by
  rw [query?, if_neg h]

/-- A session ends at the input that puts the exit command. -/
theorem isExit_iff {i : Input} : i.isExit = true ↔ i.query? = some "/exit" := by
  cases i with
  | interrupt => simp [isExit]
  | line text =>
    rw [isExit, beq_iff_eq]
    by_cases h : Text.trim text.toList = []
    · rw [query?_of_blank h, h]
      simp
    · rw [query?_of_not_blank h, Option.some_inj, ← String.toList_inj]
      simp only [String.toList_ofList]

theorem turn?_of_query?_eq_none {i : Input} (h : i.query? = none) :
    i.turn? settings store = none := by
  rw [turn?, h, Option.map_none]

theorem turn?_of_query?_eq_some {i : Input} {l : String} (h : i.query? = some l) :
    i.turn? settings store = some (respond settings store l) := by
  rw [turn?, h, Option.map_some]

end Input

/-- A line that is not blank leads to what its answer puts out, keeps and records, unless the answer
ends the session. -/
theorem take_of_query? {i : Input} {l : String} (h : i.query? = some l) (settings : Settings)
    (store : Store) :
    take settings store i =
      match (respond settings store l).reply with
      | .exit => none
      | .answer _ output =>
        some ⟨output.toList, (respond settings store l).store,
          (respond settings store l).records⟩ := by
  cases i with
  | interrupt => cases h
  | line text =>
    by_cases hblank : Text.trim text.toList = []
    · rw [Input.query?_of_blank hblank] at h
      cases h
    · rw [Input.query?_of_not_blank hblank] at h
      cases h
      refine (if_neg hblank).trans ?_
      cases (respond settings store (String.ofList (Text.trim text.toList))).reply <;> rfl

/-- An input other than the exit leads to what it prints, to the store after it and to its
records. -/
theorem take_eq (settings : Settings) (store : Store) (i : Input) :
    take settings store i =
      if i.isExit then none
      else some ⟨i.printed settings store, i.storeAfter settings store,
        i.records settings store⟩ := by
  cases hquery : i.query? with
  | none =>
    -- Without a query the calculator is not asked, so nothing is kept and nothing is recorded.
    have hexit : i.isExit = false := by
      rw [← Bool.not_eq_true, Input.isExit_iff, hquery]
      intro h
      cases h
    rw [hexit, if_neg Bool.false_ne_true, Input.storeAfter, Input.records,
      Input.turn?_of_query?_eq_none hquery]
    cases i with
    | interrupt => rfl
    | line text =>
      by_cases hblank : Text.trim text.toList = []
      · rw [take_blank hblank, Input.printed, Input.reply?, Input.turn?_of_query?_eq_none hquery]
        rfl
      · rw [Input.query?_of_not_blank hblank] at hquery
        cases hquery
  | some l =>
    have hexit : i.isExit = true ↔ (respond settings store l).reply = .exit := by
      rw [Input.isExit_iff, hquery, Option.some_inj, respond, reply_respondWith_eq_exit_iff]
    rw [take_of_query? hquery, Input.storeAfter, Input.records,
      Input.turn?_of_query?_eq_some hquery]
    cases hreply : (respond settings store l).reply with
    | exit => rw [if_pos (hexit.mpr hreply)]
    | answer accepted output =>
      have hnot : ¬ i.isExit = true := by
        rw [hexit, hreply]
        exact Reply.noConfusion
      rw [if_neg hnot]
      cases i with
      | interrupt => cases hquery
      | line text =>
        rw [Input.printed, Input.reply?, Input.turn?_of_query?_eq_some hquery, Option.map_some,
          Option.bind_some, hreply]
        rfl

end DeskCalc.Session
