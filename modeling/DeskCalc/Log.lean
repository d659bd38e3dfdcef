/-!
# The journal

A session keeps a journal of records. Each record has a level, and a journal shows the records at
or above the level it is set to.

## Main definitions

* `Level` — the five levels, from debugging detail to a critical failure
* `Record` — a level and a message
* `Record.render` — the line that a record takes in the journal
* `Journal.shown` — the records at or above a level
-/

namespace DeskCalc

/-- The levels of records, the gravest first. -/
inductive Level
  | critical
  | error
  | warning
  | info
  | debug
  deriving DecidableEq

namespace Level

/-- Every level, the gravest first. -/
def all : List Level := [critical, error, warning, info, debug]

/-- The name of a level. -/
def name : Level → String
  | critical => "CRITICAL"
  | error => "ERROR"
  | warning => "WARNING"
  | info => "INFO"
  | debug => "DEBUG"

/-- How grave the records of a level are. -/
def severity : Level → Nat
  | critical => 50
  | error => 40
  | warning => 30
  | info => 20
  | debug => 10

/-- The level that is spelled by a name. -/
def ofName? (s : List Char) : Option Level := all.find? fun l => l.name.toList == s

@[simp] theorem ofName?_name (l : Level) : ofName? l.name.toList = some l := by
  cases l <;> decide +kernel

theorem ofName?_eq_some_iff {s : List Char} {l : Level} :
    ofName? s = some l ↔ s = l.name.toList := by
  constructor
  · intro h
    have := List.find?_some h
    exact (beq_iff_eq.mp this).symm
  · rintro rfl
    exact ofName?_name l

end Level

/-- A record of the journal. -/
structure Record where
  level : Level
  message : String
  deriving DecidableEq

/-- The channel that every record names. -/
def Record.channel : String := "smart_calculator.main"

/-- The line that a record takes: the time, the channel, the level and the message. -/
def Record.render (time : String) (r : Record) : String :=
  time ++ " - " ++ channel ++ " - " ++ r.level.name ++ " - " ++ r.message

namespace Journal

/-- The records that a journal set to `threshold` shows. -/
def shown (threshold : Level) (records : List Record) : List Record :=
  records.filter fun r => decide (threshold.severity ≤ r.level.severity)

/-- The text of a journal set to `threshold`: a line for each record that it shows. -/
def text (time : String) (threshold : Level) (records : List Record) : String :=
  String.join ((shown threshold records).map fun r => r.render time ++ "\n")

@[simp] theorem shown_append (threshold : Level) (a b : List Record) :
    shown threshold (a ++ b) = shown threshold a ++ shown threshold b := by
  simp [shown]

end Journal

end DeskCalc
