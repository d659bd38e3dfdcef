import DeskCalc.Calculator
import DeskCalc.Settings

/-!
# Sessions

A session reads one line after the other. A line that begins with a slash is a command, any other a
statement. The exit command, or the end of the input, ends the session with a farewell; an interrupt
and a blank line are passed over.

## Main definitions

* `Session.Reply`, `Session.Turn` — the answer to one line, and with it the store and the records
* `Session.Engine` — a way to carry out statements; `Session.standard` is the calculator's
* `Session.respondWith`, `Session.respond` — one line as it stands
* `Session.Input`, `Session.take` — one input of a session: a line, which is trimmed, or an
  interrupt
* `Session.converse`, `Session.run` — a whole session over a list of inputs
* `Session.complete` — the program, which holds one session
-/

namespace DeskCalc.Session

/-- The answer to a line: the end of the session, or whether the line was accepted and what is to be
printed. -/
inductive Reply
  | exit
  | answer (accepted : Bool) (output : Option String)
  deriving DecidableEq

/-- The ways in which a statement fails: it is refused, or carrying it out breaks down. -/
inductive Failure
  | refused (e : CalcError)
  | breakdown (text : String)
  deriving DecidableEq

/-- Carrying out one statement: the records written on the way, and the effect or the failure. -/
structure Execution where
  records : List Record
  outcome : Except Failure Calculator.Effect

/-- A way to carry out statements against a store. -/
abbrev Engine := Store → String → Execution

/-- The calculator as an engine. -/
def standard : Engine := fun store statement =>
  ⟨Calculator.journal store statement, (Calculator.execute store statement).mapError .refused⟩

/-- The engine that breaks down on every statement. -/
def broken (text : String) : Engine := fun _ _ => ⟨[], .error (.breakdown text)⟩

/-- The answer to a line, the store after it, and the records that it wrote. -/
structure Turn where
  reply : Reply
  store : Store
  records : List Record

/-- The answer to a command. -/
def command (settings : Settings) (line : String) : Reply :=
  if line = "/exit" then .exit
  else if line = "/help" then .answer true (some settings.helpText)
  else .answer true (some settings.unknownCommand)

/-- A line that begins with a slash is a command. -/
def isCommand (line : String) : Bool := line.toList.head? == some '/'

/-- The answer to a line, where `engine` carries out the statements. -/
def respondWith (engine : Engine) (settings : Settings) (store : Store) (line : String) : Turn :=
  if isCommand line then ⟨command settings line, store, []⟩
  else
    let execution := engine store line
    match execution.outcome with
    | .ok effect => ⟨.answer true effect.output?, effect.applyTo store, execution.records⟩
    | .error (.refused e) =>
      ⟨.answer false (some e.message), store, execution.records ++
        [⟨.debug, "Rejected " ++ String.ofList (Text.quoted line.toList) ++ ": " ++ e.message⟩]⟩
    | .error (.breakdown text) =>
      ⟨.answer false (some ("Unhandled error: " ++ text)), store, execution.records ++
        [⟨.error, "Unexpected error while evaluating " ++
          String.ofList (Text.quoted line.toList)⟩]⟩

/-- The answer to a line. -/
def respond (settings : Settings) (store : Store) (line : String) : Turn :=
  respondWith standard settings store line

/-- One input of a session. -/
inductive Input
  | line (text : String)
  | interrupt
  deriving DecidableEq

/-- What an input leads to while the session goes on. -/
structure Advance where
  printed : List String
  store : Store
  records : List Record

/-- What an input leads to, or nothing if it ends the session. An interrupt shows itself, a line is
trimmed, and a blank line does nothing. -/
def take (settings : Settings) (store : Store) : Input → Option Advance
  | .interrupt => some ⟨["^C"], store, []⟩
  | .line text =>
    let line := Text.trim text.toList
    if line = [] then some ⟨[], store, []⟩
    else
      let turn := respond settings store (String.ofList line)
      match turn.reply with
      | .exit => none
      | .answer _ output => some ⟨output.toList, turn.store, turn.records⟩

/-- What a session leaves behind: the printed lines, the records, the prompts that were shown, the
number of inputs that were not read, and the store. -/
structure Transcript where
  printed : List String
  records : List Record
  prompts : List String
  unread : Nat
  store : Store

/-- The transcript with one more input in front, which led to `a` after one more prompt. -/
def Transcript.precededBy (a : Advance) (promptText : String) (t : Transcript) : Transcript :=
  { t with
    printed := a.printed ++ t.printed
    records := a.records ++ t.records
    prompts := promptText :: t.prompts }

/-- The conversation of a session over its inputs, until one of them ends it. -/
def converse (settings : Settings) : Store → List Input → Transcript
  | store, [] => ⟨[], [], [settings.promptText], 0, store⟩
  | store, input :: rest =>
    match take settings store input with
    | none => ⟨[], [], [settings.promptText], rest.length, store⟩
    | some a => (converse settings a.store rest).precededBy a settings.promptText

/-! ### One input at a time -/

@[simp] theorem take_interrupt (settings : Settings) (store : Store) :
    take settings store .interrupt = some ⟨["^C"], store, []⟩ := rfl

theorem take_blank {text : String} (h : Text.trim text.toList = []) (settings : Settings)
    (store : Store) : take settings store (.line text) = some ⟨[], store, []⟩ := by
  simp [take, h]

theorem respondWith_command {line : String} (h : isCommand line = true) (engine : Engine)
    (settings : Settings) (store : Store) :
    respondWith engine settings store line = ⟨command settings line, store, []⟩ := by
  simp [respondWith, h]

theorem command_eq_exit_iff {settings : Settings} {line : String} :
    command settings line = .exit ↔ line = "/exit" := by
  unfold command
  split
  · simp [*]
  · split <;> simp [*]

@[simp] theorem converse_nil (settings : Settings) (store : Store) :
    converse settings store [] = ⟨[], [], [settings.promptText], 0, store⟩ := rfl

theorem converse_cons_of_end {settings : Settings} {store : Store} {input : Input}
    (h : take settings store input = none) (rest : List Input) :
    converse settings store (input :: rest) =
      ⟨[], [], [settings.promptText], rest.length, store⟩ := by
  simp [converse, h]

theorem converse_cons_of_advance {settings : Settings} {store : Store} {input : Input}
    {a : Advance} (h : take settings store input = some a) (rest : List Input) :
    converse settings store (input :: rest) =
      (converse settings a.store rest).precededBy a settings.promptText := by
  simp [converse, h]

/-! ### Whole sessions -/

/-- The record at the start of a session. -/
def started : Record := ⟨.info, "Calculator session started"⟩

/-- The record at the end of a session. -/
def ended : Record := ⟨.info, "Calculator session ended"⟩

/-- A whole session, which begins with an empty store and ends with the farewell. -/
def run (settings : Settings) (inputs : List Input) : Transcript :=
  let t := converse settings Store.empty inputs
  { t with
    printed := t.printed ++ [settings.farewell]
    records := started :: (t.records ++ [ended]) }

/-- The printed text of a session: every printed line with a line end. -/
def Transcript.stdout (t : Transcript) : String := String.join (t.printed.map (· ++ "\n"))

/-- The records that the journal of a session shows. -/
def log (settings : Settings) (inputs : List Input) : List Record :=
  Journal.shown settings.logLevel (run settings inputs).records

/-- What the program leaves behind: its exit code and the transcript of its session. -/
structure Completion where
  exitCode : UInt32
  transcript : Transcript

/-- The program holds a session and then succeeds, however the session has ended. -/
def complete (settings : Settings) (inputs : List Input) : Completion := ⟨0, run settings inputs⟩

end DeskCalc.Session
