import DeskCalc.Session

/-!
# The program

The session on the terminal: prompts and answers go to the standard output, the journal to the
standard error stream, each record stamped with the milliseconds of the monotonic clock.
-/

namespace DeskCalc.Terminal

/-- Writes the records that the journal shows. -/
def report (settings : Settings) (records : List Record) : IO Unit := do
  let time := toString (← IO.monoMsNow)
  (← IO.getStderr).putStr (Journal.text time settings.logLevel records)

/-- Reads lines until the exit command or the end of the input. -/
partial def loop (settings : Settings) (store : Store) : IO Unit := do
  let output ← IO.getStdout
  output.putStr settings.promptText
  output.flush
  let text ← (← IO.getStdin).getLine
  if text.isEmpty then return
  match Session.take settings store (.line text) with
  | none => return
  | some a =>
    report settings a.records
    a.printed.forM fun line => output.putStr (line ++ "\n")
    loop settings a.store

/-- A whole session with the given settings. -/
def session (settings : Settings) : IO Unit := do
  report settings [Session.started]
  loop settings Store.empty
  (← IO.getStdout).putStr (settings.farewell ++ "\n")
  report settings [Session.ended]

end DeskCalc.Terminal

/-- Holds a session with the default settings. -/
def main : IO UInt32 := do
  DeskCalc.Terminal.session DeskCalc.Settings.default
  return 0
