import DeskCalc.Proofs.Assignment.Grammar
import DeskCalc.Proofs.Calculator.Expressions
import DeskCalc.Proofs.Session.Journal

/-!
# Printed results

A printed result is the decimal text of an integer. It may be typed in again, on its own or as the
right side of an assignment: integers are read off a line and off a right side in different ways, as
an expression with a sign and as an integer with a minus sign, and the two readings agree on every
text that both accept. So a result survives being printed, stored under a name and asked for again,
however many digits it has.

## Main results

* `evaluate_eq_read` — an integer has the same value on a line and on the right side
* `exists_output_of_reply` — what is printed for a statement is the decimal text of an integer
* `results_read_back` — a printed result is accepted again, with the same output
-/

namespace DeskCalc

open Calculator (evaluate execute isAssignment)

/-! ### Lines of a single operand -/

namespace Calculator

theorem isAssignment_eq_false {statement : String} (h : '=' ∉ statement.toList) :
    isAssignment statement = false := by
  rw [isAssignment, ← Bool.not_eq_true, List.contains_iff_mem]
  exact h

theorem execute_render (store : Store) (n : Int) :
    execute store (String.ofList (Numeral.render n)) = .ok (.value n) := by
  have hnot : '=' ∉ Numeral.render n := Numeral.not_mem_render (by decide) (by decide) n
  rw [execute_of_not_isAssignment (isAssignment_eq_false (by rwa [String.toList_ofList])),
    evaluate_render]
  rfl

theorem execute_name {store : Store} {x : String} {v : Int} (hx : isIdentifier x.toList = true)
    (hv : store.get? x = some v) : execute store x = .ok (.value v) := by
  have hnot : '=' ∉ x.toList := not_mem_of_isIdentifier hx (by decide)
  have hname : evaluate store (String.ofList x.toList) = .ok v :=
    evaluate_name hx (by rwa [String.ofList_toList])
  rw [String.ofList_toList] at hname
  rw [execute_of_not_isAssignment (isAssignment_eq_false hnot), hname]
  rfl

/-- An assignment of an integer, without any blanks, gives the name the value that the integer has
as a line. -/
theorem evaluate_eq_read {x t : String} (hx : isIdentifier x.toList = true)
    (ht : Numeral.isInteger t.toList = true) (store : Store) :
    ∃ n, evaluate store t = .ok n ∧ Assignment.read store (x ++ "=" ++ t) = .ok ⟨x, n⟩ := by
  obtain ⟨n, hn⟩ := Option.isSome_iff_exists.mp ht
  have hvalue := evaluate_of_integer? hn store
  rw [String.ofList_toList] at hvalue
  have hsides : Assignment.HasSides (x ++ "=" ++ t).toList x.toList t.toList := by
    -- Letters are no equals sign, and neither a name nor an integer has blanks to be trimmed.
    have hnot : '=' ∉ x.toList := not_mem_of_isIdentifier hx (by decide)
    refine Or.inl ⟨x.toList, t.toList, by simp, hnot, ?_, ?_⟩
    · exact (Piece.isWord_of_isIdentifier hx).trimmed.trim_eq.symm
    · exact (Assignment.trimmed_of_integer? hn).trim_eq.symm
  refine ⟨n, hvalue, (Assignment.read_eq_ok_iff_denotes hsides).mpr ⟨hx, ?_, Or.inl ?_⟩⟩
  · exact String.ofList_toList.symm
  · exact Numeral.integer?_eq_some_iff.mp hn

end Calculator

/-! ### What a session prints -/

namespace Session

variable {settings : Settings} {store : Store} {line out : String}

theorem isCommand_eq_false (h : '/' ∉ line.toList) : isCommand line = false := by
  rw [isCommand, beq_eq_false_iff_ne]
  exact fun hhead => h (List.mem_of_head? hhead)

/-- What is printed for a statement that is accepted is the decimal text of an integer. -/
theorem exists_output_of_reply (h : isCommand line = false)
    (hreply : (respond settings store line).reply = .answer true (some out)) :
    ∃ n, out = String.ofList (Numeral.render n) := by
  cases hexecute : execute store line with
  | error e =>
    rw [respond_of_error h hexecute] at hreply
    cases hreply
  | ok effect =>
    rw [respond_of_ok h hexecute] at hreply
    cases effect with
    | assigned a => cases hreply
    | value n =>
      cases hreply
      exact ⟨n, rfl⟩

theorem reply_render (settings : Settings) (store : Store) (n : Int) :
    (respond settings store (String.ofList (Numeral.render n))).reply =
      .answer true (some (String.ofList (Numeral.render n))) := by
  have hnot : '/' ∉ Numeral.render n := Numeral.not_mem_render (by decide) (by decide) n
  rw [respond_of_ok (isCommand_eq_false (by rwa [String.toList_ofList]))
    (Calculator.execute_render store n)]
  rfl

theorem reply_name {x : String} {v : Int} (hx : isIdentifier x.toList = true)
    (hv : store.get? x = some v) (settings : Settings) :
    (respond settings store x).reply = .answer true (some (String.ofList (Numeral.render v))) := by
  have hnot : '/' ∉ x.toList := not_mem_of_isIdentifier hx (by decide)
  rw [respond_of_ok (isCommand_eq_false hnot) (Calculator.execute_name hx hv)]
  rfl

/-- Integers are read alike on a line and in an assignment, and a printed result reads back: it is
answered with itself, it may be assigned to any name, and the name is answered with it then. This
holds against any later store. -/
theorem results_read_back :
    (∀ (store : Store) (x t : String), isIdentifier x.toList = true →
      Numeral.isInteger t.toList = true →
        ∃ n, evaluate store t = .ok n ∧ Assignment.read store (x ++ "=" ++ t) = .ok ⟨x, n⟩ ∧
          (Assignment.storeAfter store (x ++ "=" ++ t)).get? x = some n) ∧
      ∀ (settings : Settings) (store : Store) (line out : String), isCommand line = false →
        (respond settings store line).reply = .answer true (some out) → ∀ later : Store,
          (respond settings later out).reply = .answer true (some out) ∧
            ∀ x : String, isIdentifier x.toList = true →
              (respond settings later (x ++ " = " ++ out)).reply = .answer true none ∧
                (respond settings (respond settings later (x ++ " = " ++ out)).store x).reply =
                  .answer true (some out) := by
  constructor
  · intro store x t hx ht
    obtain ⟨n, hvalue, hread⟩ := Calculator.evaluate_eq_read hx ht store
    refine ⟨n, hvalue, hread, ?_⟩
    rw [Assignment.storeAfter_of_ok hread, Store.get?_carryOut, if_pos rfl]
  · intro settings store line out hline hreply later
    obtain ⟨n, rfl⟩ := exists_output_of_reply hline hreply
    refine ⟨reply_render settings later n, fun x hx => ?_⟩
    -- The statement is the assignment of the printed integer, written down.
    have hassigned := respond_of_assigned (isCommand_statement (a := ⟨x, n⟩) hx)
      (Calculator.execute_statement (a := ⟨x, n⟩) hx later) settings
    rw [Assignment.statement] at hassigned
    rw [hassigned]
    refine ⟨rfl, reply_name hx ?_ settings⟩
    rw [Store.get?_carryOut, if_pos rfl]

/-- Leading zeros are dropped on both ways, and a negative quotient is printed, stored and asked for
again. -/
theorem results_read_back_negative :
    evaluate .empty "-007" = .ok (-7) ∧
      Assignment.read .empty ("y" ++ "=" ++ "-007") = .ok ⟨"y", -7⟩ ∧
      (respond .default .empty "7/-2").reply = .answer true (some "-3") ∧
      (respond .default (respond .default .empty ("x" ++ " = " ++ "-3")).store "x").reply =
        .answer true (some "-3") := by
  have hline : isCommand "7/-2" = false := by decide
  have hreply : (respond .default .empty "7/-2").reply = .answer true (some "-3") := by
    decide +kernel
  have hseven : evaluate .empty "-007" = .ok (-7) := by decide +kernel
  obtain ⟨hsame, hback⟩ := results_read_back
  obtain ⟨n, hvalue, hread, -⟩ := hsame .empty "y" "-007" (by decide) (by decide +kernel)
  rw [hseven] at hvalue
  cases hvalue
  exact ⟨hseven, hread, hreply,
    ((hback .default .empty "7/-2" "-3" hline hreply .empty).2 "x" (by decide)).2⟩

end Session

end DeskCalc
