import DeskCalc.Proofs.Calculator.History
import DeskCalc.Proofs.Session.Conversation
import Mathlib.Data.List.Basic

/-!
# The journal of a session

At the level of information, the journal of a session holds its start and its end, and between them
one record for each assignment that was made. Each record spells a statement that makes the
assignment again, so the journal read from an empty store leads to the store of the session. Graver
levels show nothing at all, and the level makes no difference to the session itself.

## Main definitions

* `Session.assignments` — the assignments that are made in a session
* `Record.statement?` — the statement that a record of an assignment spells

## Main results

* `Input.assigns_or_debug` — all that an input can do to the store and to the journal
* `shown_info_records`, `storeAfter_eq_foldl` — records and store are told by the assignments
* `log_eq_assignments` — what the journal shows at each level, and what it leads to
-/

namespace DeskCalc

/-- The statement that a record of an assignment spells, behind its first word. -/
def Record.statement? (r : Record) : Option String :=
  (r.message.toList.dropPrefix? "Assigned ".toList).map String.ofList

/-- The record of an assignment spells the assignment written down. -/
theorem Record.statement?_assigned (level : Level) (s : String) :
    Record.statement? ⟨level, "Assigned " ++ s⟩ = some s := by
  have hdrop : ("Assigned " ++ s).toList.dropPrefix? "Assigned ".toList = some s.toList := by
    rw [List.dropPrefix?_eq_some_iff]
    exact ⟨"Assigned ".toList, String.toList_append, beq_self_eq_true _⟩
  rw [statement?, hdrop, Option.map_some, String.ofList_toList]

namespace Calculator

variable {store : Store} {statement : String} {a : Assignment}

theorem journal_of_assigned (h : execute store statement = .ok (.assigned a)) :
    journal store statement = [⟨.info, "Assigned " ++ a.statement⟩] := by
  obtain ⟨hassignment, hread⟩ := execute_eq_assigned_iff.mp h
  rw [journal, if_pos hassignment, hread]
  simp [assignmentRecord, Assignment.statement, String.append_assoc]

/-- A statement that makes no assignment writes only records of detail. -/
theorem level_eq_debug_of_mem_journal (h : ∀ a, execute store statement ≠ .ok (.assigned a))
    {r : Record} (hr : r ∈ journal store statement) : r.level = .debug := by
  rw [journal] at hr
  split at hr
  · next hassignment =>
    split at hr
    · next a hread => exact absurd (execute_eq_assigned_iff.mpr ⟨hassignment, hread⟩) (h a)
    · cases hr
  · split at hr
    · next c _ =>
      rw [conversionRecords, List.mem_append, List.mem_cons, List.mem_singleton, List.mem_map] at hr
      rcases hr with (rfl | ⟨_, -, rfl⟩) | rfl <;> rfl
    · cases hr

end Calculator

namespace Session

/-! ### One input -/

section Statements

variable {store : Store} {l : String} {a : Assignment}

/-- A statement that makes an assignment is accepted without output, and writes the record that
spells it. -/
theorem respond_of_assigned (hline : isCommand l = false)
    (h : Calculator.execute store l = .ok (.assigned a)) (settings : Settings) :
    respond settings store l =
      ⟨.answer true none, store.carryOut a, [⟨.info, "Assigned " ++ a.statement⟩]⟩ := by
  rw [respond_of_ok hline h, ← Calculator.journal_of_assigned h]
  rfl

/-- Any other statement leaves the store as it was and writes only records of detail. -/
theorem respond_of_not_assigned (hline : isCommand l = false)
    (h : ∀ a, Calculator.execute store l ≠ .ok (.assigned a)) (settings : Settings) :
    (respond settings store l).store = store ∧
      ∀ r ∈ (respond settings store l).records, r.level = .debug := by
  have hjournal : ∀ r ∈ Calculator.journal store l, r.level = .debug := fun r hr =>
    Calculator.level_eq_debug_of_mem_journal h hr
  cases hexecute : Calculator.execute store l with
  | error e =>
    rw [respond_of_error hline hexecute]
    refine ⟨rfl, ?_⟩
    -- A refusal adds a record of its own, which is a detail as well.
    intro r hr
    rcases List.mem_append.mp hr with hr | hr
    · exact hjournal r hr
    · rw [List.mem_singleton.mp hr]
      rfl
  | ok effect =>
    rw [respond_of_ok hline hexecute]
    cases effect with
    | assigned a => exact absurd hexecute (h a)
    | value n => exact ⟨rfl, hjournal⟩

end Statements

namespace Input

/-- The statement that an input puts to the calculator: its line, if this is no command. -/
def statement? (x : Input) : Option String := x.query?.filter fun l => !isCommand l

/-- The assignment that an input makes. -/
def assignment? (store : Store) (x : Input) : Option Assignment :=
  x.statement?.bind fun l => (Calculator.Call.execute l).assignment? store

variable {settings : Settings} {store : Store}

theorem assignment?_of_statement {x : Input} {l : String} (hquery : x.query? = some l)
    (hline : isCommand l = false) :
    x.assignment? store = (Calculator.Call.execute l).assignment? store := by
  rw [assignment?, statement?, hquery, Option.filter_some, hline]
  rfl

theorem assignment?_of_not_statement {x : Input} (h : ∀ l, x.query? = some l → isCommand l = true) :
    x.assignment? store = none := by
  rw [assignment?, statement?]
  cases hquery : x.query? with
  | none => rfl
  | some l =>
    rw [Option.filter_some, h l hquery]
    rfl

/-- An input either makes an assignment and writes the record that spells it, or leaves the store
as it was and writes only records of detail. -/
theorem assigns_or_debug (settings : Settings) (store : Store) (x : Input) :
    (∃ a, x.assignment? store = some a ∧ x.storeAfter settings store = store.carryOut a ∧
      x.records settings store = [⟨.info, "Assigned " ++ a.statement⟩] ∧
      x.reply? settings store = some (.answer true none)) ∨
    (x.assignment? store = none ∧ x.storeAfter settings store = store ∧
      ∀ r ∈ x.records settings store, r.level = .debug) := by
  rw [storeAfter, records, reply?]
  cases hquery : x.query? with
  | none =>
    have hnone : x.assignment? store = none := by
      refine assignment?_of_not_statement ?_
      intro l hl
      rw [hquery] at hl
      cases hl
    rw [turn?_of_query?_eq_none hquery]
    exact Or.inr ⟨hnone, rfl, by simp⟩
  | some l =>
    rw [turn?_of_query?_eq_some hquery]
    cases hline : isCommand l with
    | true =>
      rw [respond, respondWith_command hline]
      refine Or.inr ⟨assignment?_of_not_statement ?_, rfl, by simp⟩
      rintro l' hl'
      rw [hquery] at hl'
      cases hl'
      exact hline
    | false =>
      rw [assignment?_of_statement hquery hline]
      cases hassignment : (Calculator.Call.execute l).assignment? store with
      | some a =>
        obtain ⟨statement, ⟨⟩, hexecute⟩ :=
          Calculator.Call.assignment?_eq_some_iff.mp hassignment
        rw [respond_of_assigned hline hexecute]
        exact Or.inl ⟨a, rfl, rfl, rfl, rfl⟩
      | none =>
        -- A value and a refusal alike: the store is kept, and the records are those of detail.
        have hnot : ∀ a, Calculator.execute store l ≠ .ok (.assigned a) := by
          intro a hexecute
          have hsome := Calculator.Call.assignment?_eq_some_iff.mpr ⟨l, rfl, hexecute⟩
          rw [hassignment] at hsome
          cases hsome
        exact Or.inr ⟨rfl, respond_of_not_assigned hline hnot settings⟩

end Input

/-! ### The assignments of a session -/

/-- The assignments that some inputs make, each against the store that it meets. -/
def assignmentsFrom (settings : Settings) (store : Store) (inputs : List Input) :
    List Assignment :=
  (threaded (Input.storeAfter settings) Input.assignment? store inputs).filterMap id

/-- The assignments that are made in a session. -/
def assignments (settings : Settings) (inputs : List Input) : List Assignment :=
  assignmentsFrom settings Store.empty (untilExit inputs)

variable {settings : Settings} {store : Store}

theorem assignmentsFrom_cons_some {x : Input} {a : Assignment} (h : x.assignment? store = some a)
    (inputs : List Input) :
    assignmentsFrom settings store (x :: inputs) =
      a :: assignmentsFrom settings (x.storeAfter settings store) inputs := by
  rw [assignmentsFrom, threaded_cons, h]
  rfl

theorem assignmentsFrom_cons_none {x : Input} (h : x.assignment? store = none)
    (inputs : List Input) :
    assignmentsFrom settings store (x :: inputs) =
      assignmentsFrom settings (x.storeAfter settings store) inputs := by
  rw [assignmentsFrom, threaded_cons, h]
  rfl

/-- The store after some inputs is what their assignments make of it. -/
theorem storeAfter_eq_foldl (settings : Settings) (store : Store) (inputs : List Input) :
    storeAfter settings store inputs =
      (assignmentsFrom settings store inputs).foldl Store.carryOut store := by
  induction inputs generalizing store with
  | nil => rfl
  | cons x inputs ih =>
    rw [storeAfter, List.foldl_cons, ← storeAfter, ih]
    rcases x.assigns_or_debug settings store with ⟨a, ha, hstore, -⟩ | ⟨ha, hstore, -⟩
    · rw [assignmentsFrom_cons_some ha, hstore, List.foldl_cons]
    · rw [assignmentsFrom_cons_none ha, hstore]

/-- The name of every assignment is an identifier. -/
theorem isIdentifier_of_mem_assignmentsFrom {inputs : List Input} {a : Assignment}
    (h : a ∈ assignmentsFrom settings store inputs) : isIdentifier a.name.toList = true := by
  induction inputs generalizing store with
  | nil => cases h
  | cons x inputs ih =>
    cases hx : x.assignment? store with
    | none =>
      rw [assignmentsFrom_cons_none hx] at h
      exact ih h
    | some b =>
      rw [assignmentsFrom_cons_some hx, List.mem_cons] at h
      rcases h with rfl | h
      · obtain ⟨l, -, hl⟩ := Option.bind_eq_some_iff.mp hx
        obtain ⟨statement, -, hexecute⟩ := Calculator.Call.assignment?_eq_some_iff.mp hl
        exact (Calculator.identifier_source_of_execute hexecute).1
      · exact ih h

/-! ### The records of a session -/

/-- The records that some inputs write, each against the store that it meets. -/
def recordsFrom (settings : Settings) (store : Store) (inputs : List Input) : List Record :=
  (threaded (Input.storeAfter settings) (Input.records settings) store inputs).flatten

theorem recordsFrom_cons (settings : Settings) (store : Store) (x : Input) (inputs : List Input) :
    recordsFrom settings store (x :: inputs) =
      x.records settings store ++
        recordsFrom settings (x.storeAfter settings store) inputs := by
  rw [recordsFrom, threaded_cons, List.flatten_cons, recordsFrom]

/-- No records are shown that are all of a lesser level. -/
theorem shown_eq_nil {threshold : Level} {records : List Record}
    (h : ∀ r ∈ records, r.level.severity < threshold.severity) :
    Journal.shown threshold records = [] := by
  refine List.filter_eq_nil_iff.mpr ?_
  intro r hr
  simpa using h r hr

/-- At the level of information, the journal shows a record for each assignment. -/
theorem shown_info_records (settings : Settings) (store : Store) (inputs : List Input) :
    Journal.shown .info (recordsFrom settings store inputs) =
      (assignmentsFrom settings store inputs).map fun a => ⟨.info, "Assigned " ++ a.statement⟩ := by
  induction inputs generalizing store with
  | nil => rfl
  | cons x inputs ih =>
    rw [recordsFrom_cons, Journal.shown_append, ih]
    rcases x.assigns_or_debug settings store with ⟨a, ha, -, hrecords, -⟩ | ⟨ha, -, hrecords⟩
    · rw [assignmentsFrom_cons_some ha, hrecords]
      rfl
    · rw [assignmentsFrom_cons_none ha, shown_eq_nil, List.nil_append]
      intro r hr
      rw [hrecords r hr]
      decide

/-- No record is graver than information. -/
theorem severity_of_mem_recordsFrom {inputs : List Input} {r : Record}
    (h : r ∈ recordsFrom settings store inputs) : r.level.severity ≤ Level.info.severity := by
  induction inputs generalizing store with
  | nil => cases h
  | cons x inputs ih =>
    rw [recordsFrom_cons, List.mem_append] at h
    rcases h with h | h
    · rcases x.assigns_or_debug settings store with ⟨a, -, -, hrecords, -⟩ | ⟨-, -, hrecords⟩
      · rw [hrecords, List.mem_singleton] at h
        subst h
        exact Nat.le_refl _
      · rw [hrecords r h]
        decide
    · exact ih h

/-- A session writes its start, the records of its inputs, and its end. -/
theorem records_run (settings : Settings) (inputs : List Input) :
    (run settings inputs).records =
      started :: (recordsFrom settings Store.empty (untilExit inputs) ++ [ended]) := by
  rw [run, converse_eq, recordsFrom]

/-! ### The level of the journal -/

theorem respond_withLevel (settings : Settings) (level : Level) (store : Store) (l : String) :
    respond { settings with logLevel := level } store l = respond settings store l := by
  rw [respond, respond]
  cases hline : isCommand l with
  | true =>
    rw [respondWith_command hline, respondWith_command hline]
    rfl
  | false =>
    cases houtcome : (standard store l).outcome with
    | ok effect => rw [respondWith_of_ok hline houtcome, respondWith_of_ok hline houtcome]
    | error f => rw [respondWith_of_error hline houtcome, respondWith_of_error hline houtcome]

theorem take_withLevel (settings : Settings) (level : Level) (store : Store) (x : Input) :
    take { settings with logLevel := level } store x = take settings store x := by
  cases x with
  | interrupt => rfl
  | line text => simp only [take, respond_withLevel]

/-- A session runs the same at every level of its journal. -/
theorem run_withLevel (settings : Settings) (level : Level) (inputs : List Input) :
    run { settings with logLevel := level } inputs = run settings inputs := by
  have hconverse : ∀ store, converse { settings with logLevel := level } store inputs =
      converse settings store inputs := by
    induction inputs with
    | nil =>
      intro store
      rfl
    | cons x inputs ih =>
      intro store
      rw [converse, converse, take_withLevel]
      cases take settings store x with
      | none => rfl
      | some a =>
        dsimp only
        rw [ih]
  rw [run, run, hconverse]

/-- Above the level of information the journal shows nothing. -/
theorem log_eq_nil {level : Level} (h : Level.info.severity < level.severity)
    (settings : Settings) (inputs : List Input) :
    log { settings with logLevel := level } inputs = [] := by
  refine shown_eq_nil ?_
  rw [run_withLevel, records_run]
  intro r hr
  rcases List.mem_cons.mp hr with rfl | hr
  · exact h
  · rcases List.mem_append.mp hr with hr | hr
    · exact Nat.lt_of_le_of_lt (severity_of_mem_recordsFrom hr) h
    · rw [List.mem_singleton.mp hr]
      exact h

/-! ### Assignments written down as inputs -/

theorem isCommand_statement {a : Assignment} (h : isIdentifier a.name.toList = true) :
    isCommand a.statement = false := by
  obtain ⟨hne, hletters⟩ := isIdentifier_iff.mp h
  rw [isCommand, Assignment.toList_statement]
  cases hname : a.name.toList with
  | nil => exact absurd hname hne
  | cons c s =>
    have hc : c.isAlpha = true := hletters c (by simp [hname])
    have hslash : c ≠ '/' := by
      rintro rfl
      exact absurd hc (by decide)
    simpa using hslash

theorem query?_statement {a : Assignment} (h : isIdentifier a.name.toList = true) :
    (Input.line a.statement).query? = some a.statement := by
  have htrim := (Assignment.trimmed_statement h).trim_eq
  have hne : Text.trim a.statement.toList ≠ [] := by
    rw [htrim, Assignment.toList_statement]
    simp
  rw [Input.query?_of_not_blank hne, htrim, String.ofList_toList]

theorem assignment?_statement {a : Assignment} (h : isIdentifier a.name.toList = true)
    (store : Store) : (Input.line a.statement).assignment? store = some a := by
  rw [Input.assignment?_of_statement (query?_statement h) (isCommand_statement h)]
  exact Calculator.Call.assignment?_eq_some_iff.mpr
    ⟨a.statement, rfl, Calculator.execute_statement h store⟩

theorem isExit_statement {a : Assignment} (h : isIdentifier a.name.toList = true) :
    (Input.line a.statement).isExit = false := by
  rw [← Bool.not_eq_true, Input.isExit_iff, query?_statement h, Option.some_inj]
  intro hexit
  have hcommand := isCommand_statement h
  rw [hexit] at hcommand
  exact absurd hcommand (by decide)

theorem untilExit_statements {written : List Assignment}
    (h : ∀ a ∈ written, isIdentifier a.name.toList = true) :
    untilExit (written.map fun a => .line a.statement) =
      written.map fun a => .line a.statement := by
  induction written with
  | nil => rfl
  | cons a written ih =>
    rw [List.forall_mem_cons] at h
    rw [List.map_cons, untilExit_cons_of_not_isExit (isExit_statement h.1), ih h.2]

/-- Assignments written down are all accepted, and they are made again. -/
theorem replies_statements (settings : Settings) (store : Store) {written : List Assignment}
    (h : ∀ a ∈ written, isIdentifier a.name.toList = true) :
    threaded (Input.storeAfter settings) (Input.reply? settings) store
        (written.map fun a => .line a.statement) =
      List.replicate written.length (some (.answer true none)) ∧
    assignmentsFrom settings store (written.map fun a => .line a.statement) = written := by
  induction written generalizing store with
  | nil => exact ⟨rfl, rfl⟩
  | cons a written ih =>
    rw [List.forall_mem_cons] at h
    have hassignment := assignment?_statement h.1 store
    rw [List.map_cons, threaded_cons, assignmentsFrom_cons_some hassignment]
    obtain ⟨hreplies, hwritten⟩ := ih ((Input.line a.statement).storeAfter settings store) h.2
    rw [hreplies, hwritten]
    -- What the line answers is told by the assignment that it makes.
    rcases (Input.line a.statement).assigns_or_debug settings store with
      ⟨b, -, -, -, hreply⟩ | ⟨hnone, -⟩
    · rw [hreply, List.length_cons, List.replicate_succ]
      exact ⟨rfl, rfl⟩
    · rw [hassignment] at hnone
      cases hnone

/-- At the level of information the journal holds the start of the session, a record for each
assignment, and the end. -/
theorem log_info (settings : Settings) (inputs : List Input) :
    log { settings with logLevel := .info } inputs =
      started ::
        ((assignments settings inputs).map (fun a => ⟨.info, "Assigned " ++ a.statement⟩) ++
          [ended]) := by
  change Journal.shown .info _ = _
  rw [run_withLevel, records_run, ← List.singleton_append, Journal.shown_append,
    Journal.shown_append, shown_info_records, assignments]
  rfl

/-- The statements that the records of a session spell are its assignments written down. -/
theorem filterMap_statement?_log (settings : Settings) (inputs : List Input) :
    (log { settings with logLevel := .info } inputs).filterMap Record.statement? =
      (assignments settings inputs).map Assignment.statement := by
  have hstarted : [started].filterMap Record.statement? = [] := by decide
  have hended : [ended].filterMap Record.statement? = [] := by decide
  have hspelled : ∀ written : List Assignment,
      (written.map fun a => (⟨.info, "Assigned " ++ a.statement⟩ : Record)).filterMap
        Record.statement? = written.map Assignment.statement := by
    intro written
    rw [List.filterMap_map, ← List.filterMap_eq_map]
    refine List.filterMap_congr ?_
    intro a _
    exact Record.statement?_assigned .info a.statement
  rw [log_info, ← List.singleton_append, List.filterMap_append, List.filterMap_append, hstarted,
    hspelled, hended, List.nil_append, List.append_nil]

/-- At the level of information the journal holds the start of the session, a record for each
assignment in the order in which they were made, and the end; at the levels above it is empty. The
statements that the records spell are all accepted by a new session, and it ends with the same
store. The level makes no difference to what is printed, prompted or read. -/
theorem log_eq_assignments (settings replaySettings : Settings) (inputs : List Input) :
    let logAt := fun level => log { settings with logLevel := level } inputs
    let statements := (logAt .info).filterMap Record.statement?
    logAt .info =
        ⟨.info, "Calculator session started"⟩ ::
          ((assignments settings inputs).map (fun a => ⟨.info, "Assigned " ++ a.statement⟩) ++
            [⟨.info, "Calculator session ended"⟩]) ∧
      answers replaySettings (statements.map .line) =
        List.replicate statements.length (some (.answer true none)) ∧
      (run replaySettings (statements.map .line)).store = (run settings inputs).store ∧
      logAt .warning = [] ∧ logAt .error = [] ∧ logAt .critical = [] ∧
      ∀ level level' : Level,
        let transcript := run { settings with logLevel := level } inputs
        let transcript' := run { settings with logLevel := level' } inputs
        transcript.stdout = transcript'.stdout ∧ transcript.prompts = transcript'.prompts ∧
          transcript.unread = transcript'.unread := by
  intro logAt statements
  have hstatements : statements = (assignments settings inputs).map Assignment.statement :=
    filterMap_statement?_log settings inputs
  have hlines : statements.map Input.line =
      (assignments settings inputs).map fun a => .line a.statement := by
    rw [hstatements, List.map_map]
    rfl
  have hidentifier : ∀ a ∈ assignments settings inputs, isIdentifier a.name.toList = true :=
    fun a ha => isIdentifier_of_mem_assignmentsFrom ha
  obtain ⟨hreplies, hagain⟩ := replies_statements replaySettings Store.empty hidentifier
  refine ⟨log_info settings inputs, ?_, ?_, log_eq_nil (by decide) settings inputs,
    log_eq_nil (by decide) settings inputs, log_eq_nil (by decide) settings inputs, ?_⟩
  · rw [answers, hlines, untilExit_statements hidentifier, hreplies, hstatements, List.length_map]
  · rw [store_run, store_run, hlines, untilExit_statements hidentifier, storeAfter_eq_foldl,
      storeAfter_eq_foldl, hagain, assignments]
  · intro level level' transcript transcript'
    have heq : transcript = transcript' :=
      (run_withLevel settings level inputs).trans (run_withLevel settings level' inputs).symm
    rw [heq]
    exact ⟨rfl, rfl, rfl⟩

end Session

end DeskCalc
