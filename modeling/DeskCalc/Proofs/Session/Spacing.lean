import DeskCalc.Calculator.History
import DeskCalc.Proofs.Session.Turn
import DeskCalc.Proofs.Token.Spacing

/-!
# Blanks in lines and statements

A line with blanks at an end or beside a symbol has the same tokens, the same postfix text and the
same value as without them, whether or not it is well-formed. The two sides of an assignment are
trimmed, so a statement of either kind has the same effect with and without the blanks at its ends.
Hence it makes no difference that a session trims its lines and the calculator does not.

## Main definitions

* `Calculator.Alike` — two lines that the calculator does not tell apart
* `Calculator.trimmed` — a statement without the blanks at its ends
* `Session.shown?` — what a session prints for the outcome of a statement

## Main results

* `Calculator.alike_append_blanks_append` — blanks at an end of a line or beside a symbol make no
  difference to the line
* `Calculator.execute_trimmed` — a statement is executed as it is trimmed
* `Session.exists_take_line` — a session does to a line what the calculator does
* `Session.alike_of_spaceable` — what blanks make no difference to, in lines and in statements
-/

namespace DeskCalc

open Token (Spaceable)

/-! ### Lines -/

theorem Postfix.convert_append_blanks_append {before blanks behind : List Char}
    (h : Spaceable before behind) (hb : ∀ c ∈ blanks, Text.isBlank c = true) (store : Store) :
    convert store (before ++ (blanks ++ behind)) = convert store (before ++ behind) := by
  rw [convert, convert, isBalanced_append_blanks_append hb, Token.ofLine_append_blanks_append h hb]

theorem Postfix.convert_trim (store : Store) (line : List Char) :
    convert store (Text.trim line) = convert store line := by
  -- The blanks behind the trimmed line are put in first, then those in front of both.
  obtain ⟨b, b', hb, hb', hline⟩ := Text.exists_blanks_trim line
  have hbefore := convert_append_blanks_append
    (Token.spaceable_nil_left (Text.trim line ++ b')) hb store
  have hbehind := convert_append_blanks_append
    (Token.spaceable_nil_right (Text.trim line)) hb' store
  rw [List.append_nil, List.append_nil] at hbehind
  rw [← hbehind]
  exact hbefore.symm.trans (congrArg (convert store) hline.symm)

namespace Calculator

/-- The calculator does not tell the two lines apart: they have the same tokens, the same postfix
text and the same value, or both are refused alike. -/
structure Alike (line other : String) : Prop where
  ofLine_eq : Token.ofLine line.toList = Token.ofLine other.toList
  toPostfix_eq : ∀ store, toPostfix store line = toPostfix store other
  evaluate_eq : ∀ store, evaluate store line = evaluate store other

/-- Blanks at an end of a line or beside a symbol make no difference to the line. -/
theorem alike_append_blanks_append {before blanks behind : List Char}
    (h : Spaceable before behind) (hb : ∀ c ∈ blanks, Text.isBlank c = true) :
    Alike (String.ofList (before ++ (blanks ++ behind))) (String.ofList (before ++ behind)) where
  ofLine_eq := by
    rw [String.toList_ofList, String.toList_ofList, Token.ofLine_append_blanks_append h hb]
  toPostfix_eq store := by
    rw [toPostfix, toPostfix, String.toList_ofList, String.toList_ofList,
      Postfix.convert_append_blanks_append h hb]
  evaluate_eq store := by
    rw [evaluate, evaluate, String.toList_ofList, String.toList_ofList,
      Postfix.convert_append_blanks_append h hb]

/-! ### Statements -/

/-- The statement without the blanks at its ends. -/
def trimmed (statement : String) : String := String.ofList (Text.trim statement.toList)

@[simp] theorem toList_trimmed (statement : String) :
    (trimmed statement).toList = Text.trim statement.toList := String.toList_ofList

/-- Blanks around a statement are trimmed off its sides. -/
theorem sides_trim {statement : List Char} (h : '=' ∈ statement) :
    Assignment.sides (Text.trim statement) = Assignment.sides statement := by
  obtain ⟨b, b', hb, hb', hstatement⟩ := Text.exists_blanks_trim statement
  obtain ⟨name, source, hsplit, hname⟩ :=
    List.eq_append_cons_of_mem ((Text.mem_trim_iff (by decide)).mpr h)
  -- The blanks in front belong to the left side, and those behind to the right side.
  have hline : statement = (b ++ name) ++ '=' :: (source ++ b') := by
    rw [hstatement, hsplit]
    simp
  have hbefore : '=' ∉ b ++ name := fun hmem =>
    (List.mem_append.mp hmem).elim (fun hmem => absurd (hb '=' hmem) (by decide)) hname
  rw [hsplit, Assignment.sides_append hname, hline, Assignment.sides_append hbefore,
    Text.trim_blanks_append hb, Text.trim_append_blanks hb']

theorem isAssignment_trimmed (statement : String) :
    isAssignment (trimmed statement) = isAssignment statement := by
  rw [isAssignment, isAssignment, toList_trimmed, Bool.eq_iff_iff, List.contains_iff_mem,
    List.contains_iff_mem]
  exact Text.mem_trim_iff (by decide)

/-- A statement is executed as it is trimmed. -/
theorem execute_trimmed (store : Store) (statement : String) :
    execute store (trimmed statement) = execute store statement := by
  cases h : isAssignment statement with
  | true =>
    have hmem : '=' ∈ statement.toList := List.contains_iff_mem.mp h
    rw [execute_of_isAssignment h, execute_of_isAssignment ((isAssignment_trimmed _).trans h),
      Assignment.read, Assignment.read, toList_trimmed, sides_trim hmem]
  | false =>
    rw [execute_of_not_isAssignment h,
      execute_of_not_isAssignment ((isAssignment_trimmed _).trans h), evaluate, evaluate,
      toList_trimmed, Postfix.convert_trim]

theorem storeAfter_trimmed (store : Store) (statement : String) :
    (Call.execute (trimmed statement)).storeAfter store =
      (Call.execute statement).storeAfter store := by
  rw [Call.storeAfter, Call.outcome, execute_trimmed]
  rfl

end Calculator

/-! ### Inputs of a session -/

namespace Session

open Calculator (Alike Call Effect execute trimmed)

/-- What a session prints for the outcome of a statement: the text of the effect, or the message of
the refusal. -/
def shown? : Except CalcError Effect → Option String
  | .ok effect => effect.output?
  | .error e => some e.message

/-- An input that is neither blank nor a command prints what executing it as it stands comes to, and
keeps the store that this leaves. -/
theorem exists_take_line {text : String} (hblank : Text.trim text.toList ≠ [])
    (hcommand : isCommand (trimmed text) = false) (settings : Settings) (store : Store) :
    ∃ records, take settings store (.line text) =
      some ⟨(shown? (execute store text)).toList, (Call.execute text).storeAfter store,
        records⟩ := by
  have htake := take_of_query? (Input.query?_of_not_blank hblank) settings store
  -- The session carries out the trimmed statement, which has the same outcome.
  rw [← Calculator.storeAfter_trimmed, ← Calculator.execute_trimmed, Call.storeAfter, Call.outcome]
  cases hexecute : execute store (trimmed text) with
  | ok effect =>
    rw [trimmed] at hcommand hexecute
    rw [respond_of_ok hcommand hexecute] at htake
    exact ⟨_, htake⟩
  | error e =>
    rw [trimmed] at hcommand hexecute
    rw [respond_of_error hcommand hexecute] at htake
    exact ⟨_, htake⟩

/-- Blanks at an end of a line or beside a symbol make no difference to its tokens, its postfix text
and its value; a line is refused for its tokens in one way only. Nor do the blanks at the ends of
any statement make a difference to its outcome and to the store, and so a session, which trims it,
does what the calculator does. -/
theorem alike_of_spaceable :
    (∀ before blanks behind : List Char, Spaceable before behind →
        (∀ c ∈ blanks, Text.isBlank c = true) →
        Alike (String.ofList (before ++ (blanks ++ behind))) (String.ofList (before ++ behind))) ∧
      (∀ line e, Token.ofLine line = .error e → e = .invalidExpression) ∧
      (∀ store statement, execute store (trimmed statement) = execute store statement ∧
        (Call.execute (trimmed statement)).storeAfter store =
          (Call.execute statement).storeAfter store) ∧
      ∀ settings store text, Text.trim text.toList ≠ [] → isCommand (trimmed text) = false →
        ∃ records, take settings store (.line text) =
          some ⟨(shown? (execute store text)).toList, (Call.execute text).storeAfter store,
            records⟩ :=
  ⟨fun _ _ _ h hb => Calculator.alike_append_blanks_append h hb,
    fun _ _ he => (Token.ofLine_eq_error_iff.mp he).2,
    fun store statement => ⟨Calculator.execute_trimmed store statement,
      Calculator.storeAfter_trimmed store statement⟩,
    fun settings store _ hblank hcommand => exists_take_line hblank hcommand settings store⟩

/-- Blanks between a folded sign and its operand make no difference, and neither do those around an
assignment. -/
theorem alike_of_spaceable_folded :
    Spaceable ['2', '*', '-'] ['x'] ∧ (∀ c ∈ [' ', '\t'], Text.isBlank c = true) ∧
      Alike (String.ofList ['2', '*', '-', ' ', '\t', 'x'])
        (String.ofList ['2', '*', '-', 'x']) ∧
      execute Store.empty (trimmed " y = 4 ") = execute Store.empty " y = 4 " := by
  have hspaceable : Spaceable ['2', '*', '-'] ['x'] :=
    ⟨Or.inl (by decide), Or.inr (by decide), by decide, by decide⟩
  have hblanks : ∀ c ∈ [' ', '\t'], Text.isBlank c = true :=
    List.forall_mem_cons.mpr ⟨by decide, List.forall_mem_singleton.mpr (by decide)⟩
  obtain ⟨halike, -, hstatements, -⟩ := alike_of_spaceable
  exact ⟨hspaceable, hblanks, halike _ _ _ hspaceable hblanks,
    (hstatements Store.empty " y = 4 ").1⟩

end Session

end DeskCalc
