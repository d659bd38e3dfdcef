import DeskCalc.Proofs.Session.Thread
import DeskCalc.Proofs.Session.Turn

/-!
# Whole sessions

A session reads its inputs up to the first one that trims to the exit command, or all of them. Each
of them leads to what it leads to at the store that the inputs before it have left, and the
transcript is put together from this.

## Main definitions

* `Session.untilExit` — the inputs before the exit
* `Session.storeAfter` — the store after some inputs
* `Session.answers`, `Session.echoes` — the replies and the printed texts, input by input

## Main results

* `converse_eq` — the transcript of a session, part by part
* `stdout_run` — the printed text is that of the inputs before the exit, and the farewell
* `complete_eq` — how a session runs and ends, over every list of inputs
-/

namespace DeskCalc

namespace Session

/-- The inputs that a session reads before the exit. -/
def untilExit (inputs : List Input) : List Input := inputs.take (inputs.findIdx Input.isExit)

/-- The store after some inputs. -/
def storeAfter (settings : Settings) (store : Store) (inputs : List Input) : Store :=
  inputs.foldl (Input.storeAfter settings) store

/-! ### The inputs before the exit -/

@[simp] theorem untilExit_nil : untilExit [] = [] := rfl

theorem untilExit_cons_of_isExit {x : Input} (h : x.isExit = true) (inputs : List Input) :
    untilExit (x :: inputs) = [] := by
  simp [untilExit, List.findIdx_cons, h]

theorem untilExit_cons_of_not_isExit {x : Input} (h : x.isExit = false) (inputs : List Input) :
    untilExit (x :: inputs) = x :: untilExit inputs := by
  simp [untilExit, List.findIdx_cons, h]

/-! ### The transcript -/

/-- The transcript of a session: what the inputs before the exit lead to, one prompt for each of
them and one more for the exit or for the end of the inputs. -/
theorem converse_eq (settings : Settings) (store : Store) (inputs : List Input) :
    converse settings store inputs =
      { printed := (threaded (Input.storeAfter settings) (Input.printed settings) store
          (untilExit inputs)).flatten
        records := (threaded (Input.storeAfter settings) (Input.records settings) store
          (untilExit inputs)).flatten
        prompts := List.replicate (inputs.findIdx Input.isExit + 1) settings.promptText
        unread := inputs.length - inputs.findIdx Input.isExit - 1
        store := storeAfter settings store (untilExit inputs) } := by
  -- Each input hands the store that it leaves to the next, so the induction is for every store.
  induction inputs generalizing store with
  | nil => rfl
  | cons x inputs ih =>
    have htake := take_eq settings store x
    cases hexit : x.isExit with
    | true =>
      rw [hexit, if_pos rfl] at htake
      rw [converse_cons_of_end htake, untilExit_cons_of_isExit hexit]
      simp [List.findIdx_cons, hexit, storeAfter]
    | false =>
      rw [hexit, if_neg Bool.false_ne_true] at htake
      rw [converse_cons_of_advance htake, ih, untilExit_cons_of_not_isExit hexit]
      simp [Transcript.precededBy, List.findIdx_cons, hexit, storeAfter, List.replicate_succ]

/-- The line ends may be put behind the lines of each part on its own. -/
theorem join_flatten (parts : List (List String)) :
    String.join (parts.flatten.map (· ++ "\n")) =
      String.join (parts.map fun lines => String.join (lines.map (· ++ "\n"))) := by
  induction parts with
  | nil => rfl
  | cons lines parts ih =>
    rw [List.flatten_cons, List.map_append, String.join_append, ih, List.map_cons,
      String.join_cons]

/-- The replies to the inputs of a session before the exit. An interrupt and a blank line get
none. -/
def answers (settings : Settings) (inputs : List Input) : List (Option Reply) :=
  threaded (Input.storeAfter settings) (Input.reply? settings) Store.empty (untilExit inputs)

/-- The texts that the inputs before the exit add to the printed text, one for each input. -/
def echoes (settings : Settings) (inputs : List Input) : List String :=
  threaded (Input.storeAfter settings) (Input.echo settings) Store.empty (untilExit inputs)

/-- The printed text of a session is that of the inputs before the exit, and the farewell. -/
theorem stdout_run (settings : Settings) (inputs : List Input) :
    (run settings inputs).stdout =
      String.join (echoes settings inputs) ++ (settings.farewell ++ "\n") := by
  have hecho : (fun store x => Input.echo settings store x) = fun store x =>
      String.join ((Input.printed settings store x).map (· ++ "\n")) := by
    funext store x
    exact x.echo_eq
  rw [Transcript.stdout, run, converse_eq]
  simp only [List.map_append, String.join_append, join_flatten, map_threaded]
  rw [echoes, ← hecho]
  simp

theorem store_run (settings : Settings) (inputs : List Input) :
    (run settings inputs).store = storeAfter settings Store.empty (untilExit inputs) := by
  rw [run, converse_eq]

/-- A session reads its inputs up to the first one that trims to the exit command, and shows one
prompt more than there are inputs before it; the inputs behind the exit stay unread. The printed
text is made of what each input before the exit has printed at the store that it meets, and of the
farewell, once and at the very end. However the session ends, the program succeeds. -/
theorem complete_eq (settings : Settings) (inputs : List Input) :
    let exitAt := inputs.findIdx Input.isExit
    let completion := complete settings inputs
    completion.exitCode = 0 ∧
      completion.transcript.prompts = List.replicate (exitAt + 1) settings.promptText ∧
      completion.transcript.unread = inputs.length - exitAt - 1 ∧
      completion.transcript.stdout =
        String.join (threaded (Input.storeAfter settings) (Input.echo settings) Store.empty
          (inputs.take exitAt)) ++ (settings.farewell ++ "\n") := by
  refine ⟨rfl, ?_, ?_, stdout_run settings inputs⟩
  · rw [complete, run, converse_eq]
  · rw [complete, run, converse_eq]

end Session

end DeskCalc
