import DeskCalc.Log
import DeskCalc.Text.Blank
import DeskCalc.Text.UpperCase

/-!
# Settings

A session is presented by four texts and keeps its journal at one level. The level is given by its
name, up to case and surrounding blanks, and a text that names no level is refused.

## Main definitions

* `Settings` — the settings of a session, with their defaults
* `Settings.logLevel?` — the level that a text names
* `Settings.checkLevel` — the same, with the reason why a text names none

## Main results

* `checkLevel_eq_ok_iff`, `checkLevel_eq_error_iff` — what is accepted, and what is said otherwise
-/

namespace DeskCalc

/-- The texts that a session shows and the level of its journal. -/
structure Settings where
  promptText : String := "> "
  farewell : String := "Bye!"
  helpText : String :=
    "The program evaluates integer expressions with + - * / and parentheses; " ++
    "assign variables with name = value and use them by name"
  unknownCommand : String := "Unknown command."
  logLevel : Level := .warning
  deriving DecidableEq

namespace Settings

/-- The settings when nothing is given. -/
def default : Settings := {}

/-- The level that a text names. Case does not count, nor do blanks around the name. -/
def logLevel? (text : String) : Option Level :=
  Level.ofName? (Text.upper (Text.trim text.toList))

/-- The level that a text names, or what is wrong with the text, which is shown as it was given. -/
def checkLevel (text : String) : Except String Level :=
  match logLevel? text with
  | some l => .ok l
  | none => .error ("Unknown log level: " ++ text)

@[simp] theorem logLevel?_name (l : Level) : logLevel? l.name = some l := by
  have htrim : Text.trim l.name.toList = l.name.toList := by cases l <;> decide +kernel
  have hcapital : l.name.toList.all (fun c => decide (c.toNat < 0x61)) = true := by
    cases l <;> decide +kernel
  rw [logLevel?, htrim, Text.upper_eq_self, Level.ofName?_name]
  exact fun c hc => of_decide_eq_true (List.all_eq_true.mp hcapital c hc)

theorem checkLevel_eq_ok_iff {text : String} {l : Level} :
    checkLevel text = .ok l ↔ logLevel? text = some l := by
  unfold checkLevel
  split
  · next found h => simp [h]
  · next h => simp [h]

theorem checkLevel_eq_error_iff {text reason : String} :
    checkLevel text = .error reason ↔
      logLevel? text = none ∧ reason = "Unknown log level: " ++ text := by
  unfold checkLevel
  split
  · next found h => simp [h]
  · next h => simp [h, eq_comm]

end Settings

end DeskCalc
