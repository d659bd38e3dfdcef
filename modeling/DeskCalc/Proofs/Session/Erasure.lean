import DeskCalc.Proofs.Session.Conversation
import Mathlib.Data.List.Basic

/-!
# Lines without effect

Only an assignment that is accepted changes the store, and later lines see nothing of earlier ones
but the store. So a line of any other kind can be taken out of a session: the other lines are
answered as before, the session ends with the same store, and just the text of the line is missing
from what is printed. This holds for lines that are answered one by one as well, also where
statements are carried out by an engine that breaks down.

## Main definitions

* `Request` — a line to be answered, with the engine that carries out its statement
* `Request.Idle`, `Input.Idle` — the lines and the inputs without effect on the store
* `replies` — the replies to requests that are answered one after the other

## Main results

* `Request.Idle.storeAfter_eq`, `Input.Idle.storeAfter_eq` — they leave the store as it was
* `eraseIdx_of_idle` — taking one of them out changes nothing for the others
-/

namespace DeskCalc

namespace Session

/-- A line to be answered, and the engine that carries out its statement. -/
structure Request where
  line : String
  engine : Engine := standard

namespace Request

variable (settings : Settings) (store : Store)

/-- The answer to a request. -/
def turn (r : Request) : Turn := respondWith r.engine settings store r.line

/-- The store after a request. -/
def storeAfter (r : Request) : Store := (r.turn settings store).store

/-- The store after some requests. -/
def storeAfterAll (requests : List Request) : Store :=
  requests.foldl (storeAfter settings) store

/-- A request without effect on the store: a command that is not the exit, a statement that has a
value, or one that fails, be it refused or broken down. -/
inductive Idle (r : Request) : Prop
  | command (hline : isCommand r.line = true) (hexit : r.line ≠ "/exit")
  | value (n : Int) (hline : isCommand r.line = false)
      (hvalue : (r.engine store r.line).outcome = .ok (.value n))
  | failure (f : Failure) (hline : isCommand r.line = false)
      (hfailure : (r.engine store r.line).outcome = .error f)

variable {settings store}

/-- A request without effect leaves the store as it was. -/
theorem Idle.storeAfter_eq {r : Request} (h : r.Idle store) :
    r.storeAfter settings store = store := by
  rw [storeAfter, turn]
  cases h with
  | command hline => rw [respondWith_command hline]
  | value n hline hvalue =>
    rw [respondWith_of_ok hline hvalue]
    rfl
  | failure f hline hfailure => rw [respondWith_of_error hline hfailure]

theorem Idle.line_ne_exit {r : Request} (h : r.Idle store) : r.line ≠ "/exit" := by
  intro heq
  cases h with
  | command _ hexit => exact hexit heq
  | value _ hline | failure _ hline =>
    rw [heq] at hline
    exact absurd hline (by decide)

end Request

/-- The replies to requests that are answered one after the other. -/
def replies (settings : Settings) (store : Store) (requests : List Request) : List Reply :=
  threaded (Request.storeAfter settings) (fun s r => (r.turn settings s).reply) store requests

namespace Input

/-- An input without effect on the store: an interrupt, a blank line, or a line without effect. -/
inductive Idle (store : Store) : Input → Prop
  | interrupt : Idle store .interrupt
  | blank (text : String) (hblank : Text.trim text.toList = []) : Idle store (line text)
  | request (text : String) (hblank : Text.trim text.toList ≠ [])
      (hidle : Request.Idle store ⟨String.ofList (Text.trim text.toList), standard⟩) :
      Idle store (line text)

variable {settings : Settings} {store : Store}

/-- An input without effect leaves the store as it was. -/
theorem Idle.storeAfter_eq {x : Input} (h : x.Idle store) :
    x.storeAfter settings store = store := by
  rw [storeAfter]
  cases h with
  | interrupt => rfl
  | blank text hblank =>
    rw [turn?_of_query?_eq_none (query?_of_blank hblank)]
    rfl
  | request text hblank hidle =>
    rw [turn?_of_query?_eq_some (query?_of_not_blank hblank)]
    exact hidle.storeAfter_eq

/-- An input without effect does not end the session. -/
theorem Idle.isExit_eq_false {x : Input} (h : x.Idle store) : x.isExit = false := by
  rw [← Bool.not_eq_true, isExit_iff]
  intro hexit
  cases h with
  | interrupt => cases hexit
  | blank text hblank =>
    rw [query?_of_blank hblank] at hexit
    cases hexit
  | request text hblank hidle =>
    rw [query?_of_not_blank hblank, Option.some_inj] at hexit
    exact hidle.line_ne_exit hexit

end Input

/-! ### Taking out an input before the exit -/

theorem isExit_eq_false_of_mem {inputs : List Input} {x : Input} (h : x ∈ untilExit inputs) :
    x.isExit = false := by
  induction inputs with
  | nil => cases h
  | cons y inputs ih =>
    cases hexit : y.isExit with
    | true =>
      rw [untilExit_cons_of_isExit hexit] at h
      cases h
    | false =>
      rw [untilExit_cons_of_not_isExit hexit, List.mem_cons] at h
      rcases h with rfl | h
      · exact hexit
      · exact ih h

/-- Taking out an input other than the exit moves the exit with the inputs around it. -/
theorem untilExit_eraseIdx {inputs : List Input} {i : Nat}
    (h : ∀ x, inputs[i]? = some x → (∀ y ∈ inputs.take i, y.isExit = false) →
      x.isExit = false) :
    untilExit (inputs.eraseIdx i) = (untilExit inputs).eraseIdx i := by
  induction inputs generalizing i with
  | nil => rfl
  | cons x inputs ih =>
    cases i with
    | zero =>
      have hx : x.isExit = false := h x rfl (by simp)
      rw [untilExit_cons_of_not_isExit hx, List.eraseIdx_cons_zero, List.eraseIdx_cons_zero]
    | succ i =>
      rw [List.eraseIdx_cons_succ]
      cases hexit : x.isExit with
      | true =>
        rw [untilExit_cons_of_isExit hexit, untilExit_cons_of_isExit hexit, List.eraseIdx_nil]
      | false =>
        rw [untilExit_cons_of_not_isExit hexit, untilExit_cons_of_not_isExit hexit,
          List.eraseIdx_cons_succ, ih]
        intro y hy hbefore
        refine h y hy ?_
        rw [List.take_succ_cons, List.forall_mem_cons]
        exact ⟨hexit, hbefore⟩

/-- An input before the exit stands where it stood among all the inputs. -/
theorem getElem?_untilExit {inputs : List Input} {i : Nat} {x : Input}
    (h : (untilExit inputs)[i]? = some x) :
    inputs[i]? = some x ∧ (untilExit inputs).take i = inputs.take i := by
  rw [untilExit, List.getElem?_take] at h
  split at h
  · next hlt => exact ⟨h, by rw [untilExit, List.take_take, Nat.min_eq_left (Nat.le_of_lt hlt)]⟩
  · cases h

/-- Taking out one line without effect changes no reply to another line and not the store at the
end. In a session, where the line may also be an interrupt or blank, or stand behind the exit, just
the text that it adds is missing from the printed text. -/
theorem eraseIdx_of_idle (settings : Settings) :
    (∀ (store : Store) (requests : List Request) (i : Nat),
      (∀ r, requests[i]? = some r →
        r.Idle (Request.storeAfterAll settings store (requests.take i))) →
      replies settings store (requests.eraseIdx i) = (replies settings store requests).eraseIdx i ∧
        Request.storeAfterAll settings store (requests.eraseIdx i) =
          Request.storeAfterAll settings store requests) ∧
    ∀ (inputs : List Input) (i : Nat),
      (∀ x, inputs[i]? = some x → (∀ y ∈ inputs.take i, y.isExit = false) →
        x.Idle (storeAfter settings Store.empty (inputs.take i))) →
      answers settings (inputs.eraseIdx i) = (answers settings inputs).eraseIdx i ∧
        (run settings (inputs.eraseIdx i)).store = (run settings inputs).store ∧
        (run settings inputs).stdout =
          String.join (echoes settings inputs) ++ (settings.farewell ++ "\n") ∧
        (run settings (inputs.eraseIdx i)).stdout =
          String.join ((echoes settings inputs).eraseIdx i) ++ (settings.farewell ++ "\n") := by
  constructor
  · intro store requests i hidle
    have hleaves : LeavesStore (Request.storeAfter settings) store requests i :=
      fun r hr => (hidle r hr).storeAfter_eq
    exact ⟨threaded_eraseIdx hleaves, foldl_eraseIdx hleaves⟩
  · intro inputs i hidle
    have herase : untilExit (inputs.eraseIdx i) = (untilExit inputs).eraseIdx i :=
      untilExit_eraseIdx fun x hx hbefore => (hidle x hx hbefore).isExit_eq_false
    -- An input that is read stands before the exit, with all that is in front of it.
    have hleaves : LeavesStore (Input.storeAfter settings) Store.empty (untilExit inputs) i := by
      intro x hx
      obtain ⟨hget, htake⟩ := getElem?_untilExit hx
      have hbefore : ∀ y ∈ inputs.take i, y.isExit = false := by
        intro y hy
        rw [← htake] at hy
        exact isExit_eq_false_of_mem (List.mem_of_mem_take hy)
      rw [htake]
      exact (hidle x hget hbefore).storeAfter_eq
    refine ⟨?_, ?_, stdout_run settings inputs, ?_⟩
    · rw [answers, herase, threaded_eraseIdx hleaves, answers]
    · rw [store_run, store_run, herase, storeAfter, foldl_eraseIdx hleaves, storeAfter]
    · rw [stdout_run, echoes, herase, threaded_eraseIdx hleaves, echoes]

/-- A statement that breaks down between two assignments can be taken out, and so can a value that a
session prints before its exit. -/
theorem eraseIdx_of_idle_breakdown :
    replies .default .empty [⟨"x = 5", standard⟩, ⟨"y = x", standard⟩, ⟨"x + y", standard⟩] =
        (replies .default .empty [⟨"x = 5", standard⟩, ⟨"x = 6", broken "out of paper"⟩,
          ⟨"y = x", standard⟩, ⟨"x + y", standard⟩]).eraseIdx 1 ∧
      (run .default [.line "x = 5", .line " ", .line "/exit", .line "x = 6"]).stdout =
        String.join ((echoes .default
          [.line "x = 5", .line " x * x", .line " ", .line "/exit", .line "x = 6"]).eraseIdx 1) ++
          "Bye!\n" := by
  constructor
  · refine ((eraseIdx_of_idle .default).1 .empty [⟨"x = 5", standard⟩,
      ⟨"x = 6", broken "out of paper"⟩, ⟨"y = x", standard⟩, ⟨"x + y", standard⟩] 1 ?_).1
    rintro r ⟨⟩
    exact .failure (.breakdown "out of paper") (by decide) rfl
  · refine ((eraseIdx_of_idle .default).2
      [.line "x = 5", .line " x * x", .line " ", .line "/exit", .line "x = 6"] 1 ?_).2.2.2
    rintro x ⟨⟩ -
    exact .request " x * x" (by decide) (.value 25 (by decide) (by decide +kernel))

end Session

end DeskCalc
