import DeskCalc.Settings.Basic

/-!
# Drafts of settings

Settings are drafted as given values under keys. A key without a value takes its default, a value
has to be a text, and the text for the level is checked as well. All unusable values are reported
together, in the order of the keys.

## Main definitions

* `Settings.Draft` — what is given under each key
* `Settings.Fault` — what is wrong with a given value
* `Settings.read` — the settings that a draft comes to, or what is wrong with it

## Main results

* `read_eq_error_iff` — a draft is refused with all of its faults
-/

namespace DeskCalc.Settings

/-- The keys under which settings are given. -/
inductive Key
  | promptText
  | farewell
  | helpText
  | unknownCommand
  | logLevel
  deriving DecidableEq

/-- The keys in the order in which they are read. -/
def Key.all : List Key := [promptText, farewell, helpText, unknownCommand, logLevel]

/-- The name of a key. -/
def Key.name : Key → String
  | promptText => "prompt"
  | farewell => "farewell"
  | helpText => "help_text"
  | unknownCommand => "unknown_command"
  | logLevel => "log_level"

/-- What may be given under a key. -/
inductive Given
  | nothing
  | text (s : String)
  | other
  deriving DecidableEq

/-- What is wrong with a given value: it is no text, or the check of the text refuses it. -/
inductive Fault
  | notText
  | refused (reason : String)
  deriving DecidableEq

/-- The name of a fault. -/
def Fault.name : Fault → String
  | notText => "string_type"
  | refused _ => "value_error"

/-- The description of a fault. The reason of a refusal is passed on. -/
def Fault.message : Fault → String
  | notText => "Input should be a valid string"
  | refused reason => "Value error, " ++ reason

/-- A key with the fault of the value given under it. -/
structure Issue where
  key : Key
  fault : Fault
  deriving DecidableEq

/-- The values given for a session's settings. -/
abbrev Draft := Key → Given

/-- The text that is given, or the default. -/
def Given.textD (fallback : String) : Given → String
  | text s => s
  | _ => fallback

/-- The level that is given, or the default. -/
def Given.levelD (fallback : Level) : Given → Level
  | text s => (checkLevel s).toOption.getD fallback
  | _ => fallback

/-- What is wrong with a value where a text is wanted. -/
def Given.textFault? : Given → Option Fault
  | other => some .notText
  | _ => none

/-- What is wrong with a value where the name of a level is wanted. -/
def Given.levelFault? : Given → Option Fault
  | text s =>
    match checkLevel s with
    | .ok _ => none
    | .error reason => some (.refused reason)
  | other => some .notText
  | nothing => none

/-- What is wrong with the value given under a key. -/
def fault? (d : Draft) : Key → Option Fault
  | .logLevel => (d .logLevel).levelFault?
  | key => (d key).textFault?

/-- All that is wrong with a draft, in the order of the keys. -/
def issues (d : Draft) : List Issue :=
  Key.all.filterMap fun key => (fault? d key).map fun fault => ⟨key, fault⟩

/-- The settings that a draft comes to. -/
def read (d : Draft) : Except (List Issue) Settings :=
  match issues d with
  | [] =>
    .ok {
      promptText := (d .promptText).textD default.promptText
      farewell := (d .farewell).textD default.farewell
      helpText := (d .helpText).textD default.helpText
      unknownCommand := (d .unknownCommand).textD default.unknownCommand
      logLevel := (d .logLevel).levelD default.logLevel }
  | found => .error found

/-- A draft is refused if anything is wrong with it, and then all of that is reported. -/
theorem read_eq_error_iff {d : Draft} {found : List Issue} :
    read d = .error found ↔ issues d = found ∧ found ≠ [] := by
  unfold read
  split
  · next h => simp [h, eq_comm]
  · next h => simpa using fun heq => heq ▸ h

example : read (fun _ => .nothing) = .ok default := rfl

end DeskCalc.Settings
