import DeskCalc.Proofs.Calculator.Lines
import DeskCalc.Proofs.Piece.Word
import DeskCalc.Proofs.Postfix.Tiers
import DeskCalc.Proofs.Token.Shape
import DeskCalc.Session.Bare
import Mathlib.Data.List.TakeWhile

/-!
# Nothing breaks down

The calculator on bare texts does what the calculator does, so none of its steps breaks down: a
token has a first character, since words are not empty; only the texts of operators and open
parentheses wait; a literal without its fraction spells an integer; and the other steps are taken
only where what they need has been found before. Since the line is balanced, no parenthesis is left
waiting at its end.

## Main definitions

* `Postfix.Pending.text` — the text that stands for what waits on the stack

## Main results

* `arrive_text` — the texts of stack and entries follow the stack and the entries
* `tiered_of_convert` — what the stack of texts looks like while a line is converted
* `convert_eq`, `apply_eq`, `assign_eq` — the parts of the calculator agree
* `bare_eq_standard` — the calculator on bare texts is the calculator
-/

namespace DeskCalc

open Postfix (Pending Entry entriesFrom leftParen_not_mem_pendingAfterAll pendingAfter
  pendingAfterAll waiting written writtenAll)

/-- The text that stands for what waits on the stack. -/
def Postfix.Pending.text : Pending → List Char
  | op o => [o.char]
  | leftParen => ['(']

/-- The texts of operators that wait are those of the entries that they become. -/
theorem Postfix.map_text_waiting {stack : List Pending} (h : .leftParen ∉ stack) :
    (waiting stack).map Entry.text = stack.map Pending.text := by
  induction stack with
  | nil => rfl
  | cons p stack ih =>
    obtain ⟨hp, hstack⟩ := List.ne_and_not_mem_of_not_mem_cons h
    cases p with
    | op o =>
      rw [waiting_op, List.map_cons, List.map_cons, ih hstack]
      rfl
    | leftParen => exact absurd rfl hp

/-- What passes a test that no open parenthesis passes are operators. -/
theorem Postfix.map_text_waiting_takeWhile {f : Pending → Bool} (h : f .leftParen = false)
    (stack : List Pending) :
    (waiting (stack.takeWhile f)).map Entry.text = (stack.takeWhile f).map Pending.text := by
  refine map_text_waiting fun hmem => ?_
  have hpass := List.all_eq_true.mp List.all_takeWhile _ hmem
  rw [h] at hpass
  cases hpass

/-- The integer digits of an unsigned literal are those before its point. -/
theorem Numeral.natural?_takeWhile {s : List Char} {n : Nat} (h : unsigned? s = some n) :
    natural? (s.takeWhile (· != '.')) = some n := by
  have hpass : ∀ {t : List Char}, isDigits t = true → ∀ c ∈ t, (c != '.') = true := by
    intro t ht c hc
    rw [bne_iff_ne]
    rintro rfl
    exact point_not_mem_of_isDigits ht hc
  rcases unsigned?_eq_some_iff.mp h with hs | ⟨whole, fraction, rfl, -, hwhole⟩
  · rwa [List.takeWhile_eq_self_iff.mpr (hpass (isDigits_of_natural? hs))]
  · rw [List.takeWhile_append_of_pos (hpass (isDigits_of_natural? hwhole))]
    simpa using hwhole

/-- The part of a literal before its point is an integer with the value of the literal. -/
theorem Numeral.integer?_takeWhile {s : List Char} {n : Int} (h : literal? s = some n) :
    integer? (s.takeWhile (· != '.')) = some n := by
  rcases literal?_eq_some_iff.mp h with ⟨m, hm, rfl⟩ | ⟨t, m, rfl, hm, rfl⟩
  · have hnatural := natural?_takeWhile hm
    rw [integer?, withSign_of_head_ne (head?_ne_of_isDigits (isDigits_of_natural? hnatural)),
      hnatural]
    rfl
  · have hnatural := natural?_takeWhile hm
    rw [List.takeWhile_cons_of_pos (by decide), integer?, withSign, hnatural]
    rfl

namespace Session.Bare

variable {α β : Type}

/-! ### Steps and refusals -/

/-- Two steps may be joined before or after they count as steps that may break down. -/
theorem refusing_bind (x : Except CalcError α) (f : α → Except CalcError β) :
    refusing (x >>= f) = refusing x >>= fun a => refusing (f a) := by
  cases x <;> rfl

/-- Steps that agree one by one agree as a whole. -/
theorem foldlM_eq_refusing {f : α → β → Except CalcError α} {g : α → β → Except Failure α}
    (h : ∀ a b, g a b = refusing (f a b)) (a : α) (l : List β) :
    l.foldlM g a = refusing (l.foldlM f a) := by
  induction l generalizing a with
  | nil => rfl
  | cons b l ih =>
    rw [List.foldlM_cons, List.foldlM_cons, refusing_bind, h]
    exact congrArg _ (funext ih)

/-! ### Tokens and the stack of texts -/

/-- What a test releases from the texts of a stack, if it never breaks down on them. -/
theorem release_map_text {test : List Char → Except Failure Bool} {f : Pending → Bool}
    (h : ∀ p : Pending, test p.text = .ok (f p)) (stack : List Pending) :
    release test (stack.map Pending.text) =
      .ok ((stack.takeWhile f).map Pending.text, (stack.dropWhile f).map Pending.text) := by
  induction stack with
  | nil => rfl
  | cons p stack ih =>
    rw [List.map_cons, release, h, List.takeWhile_cons, List.dropWhile_cons]
    cases f p with
    | true =>
      -- The test goes on below the top.
      change (release test (stack.map Pending.text) >>= _) = _
      rw [ih]
      rfl
    | false => rfl

/-- Only operators and parentheses wait, so their precedence is there where it is looked up. -/
theorem yieldsTo_text (o : Operator) (p : Pending) :
    yieldsTo [o.char] p.text = .ok (p.yieldsTo o) := by
  cases p with
  | op q => cases o <;> cases q <;> rfl
  | leftParen => rfl

theorem bne_leftParen_text (p : Pending) : (p.text != ['(']) = p.operator?.isSome := by
  cases p with
  | op o => cases o <;> rfl
  | leftParen => rfl

/-- A name is found behind the minus sign of an operand, and its value only where it has one. -/
theorem resolve_text {a : Operand} (h : (Token.operand a).WellFormed) (store : Store) :
    resolve store a.text = .ok (a.value? store) := by
  have hname : (if a.text.head? == some '-' then a.text.drop 1 else a.text) = a.word := by
    by_cases hnegated : a.negated = true
    · rw [if_pos (beq_iff_eq.mpr ((Operand.head?_text_eq_minus_iff h).mpr hnegated)),
        Operand.text, if_pos hnegated]
      rfl
    · rw [if_neg (fun hhead =>
        hnegated ((Operand.head?_text_eq_minus_iff h).mp (beq_iff_eq.mp hhead))),
        Operand.text, if_neg hnegated]
  have hsign : (a.text.head? == some '-') = a.negated := by
    rw [Bool.eq_iff_iff, beq_iff_eq]
    exact Operand.head?_text_eq_minus_iff h
  unfold resolve
  dsimp only
  rw [hname, hsign, Store.contains, Operand.value?, value]
  cases store.get? (String.ofList a.word) <;> rfl

theorem isVerbatim_symbol (s : Symbol) :
    (Text.isDigit s.char || Numeral.isLiteral [s.char]) = false := by
  rcases s with (_ | _ | _ | _) | _ | _ <;> decide

/-- An operator releases what yields to it, and waits. -/
theorem arrive_op (store : Store) (stack : List Pending) (output : List (List Char))
    (o : Operator) :
    arrive store ⟨stack.map Pending.text, output⟩ [o.char] =
      .ok ⟨(pendingAfter stack (.symbol (.op o))).map Pending.text,
        output ++ (stack.takeWhile (·.yieldsTo o)).map Pending.text⟩ := by
  have hverbatim : (Text.isDigit o.char || Numeral.isLiteral [o.char]) = false :=
    isVerbatim_symbol (.op o)
  have hleft : [o.char] ≠ ['('] := by cases o <;> decide
  have hright : [o.char] ≠ [')'] := by cases o <;> decide
  have hrelease := release_map_text (yieldsTo_text o) stack
  unfold arrive
  simp only [first, hverbatim, hleft, hright, hrelease, Postfix.operator?_char, bind, Except.bind,
    pure, Except.pure]
  rfl

/-- A closing parenthesis releases what waits above the open one, and takes this one away. -/
theorem arrive_rightParen (store : Store) (stack : List Pending) (output : List (List Char)) :
    arrive store ⟨stack.map Pending.text, output⟩ [')'] =
      .ok ⟨(pendingAfter stack (.symbol .rightParen)).map Pending.text,
        output ++ (stack.takeWhile (·.operator?.isSome)).map Pending.text⟩ := by
  have hrelease : release (fun top => .ok (top != ['('])) (stack.map Pending.text) =
      .ok ((stack.takeWhile (·.operator?.isSome)).map Pending.text,
        (stack.dropWhile (·.operator?.isSome)).map Pending.text) :=
    release_map_text (fun p => congrArg _ (bne_leftParen_text p)) stack
  have hverbatim : (Text.isDigit ')' || Numeral.isLiteral [')']) = false :=
    isVerbatim_symbol .rightParen
  have hleft : [')'] ≠ ['('] := by decide
  rw [Postfix.pendingAfter_rightParen]
  unfold arrive
  simp only [first, hverbatim, hleft, hrelease, bind, Except.bind, pure, Except.pure]
  -- The top is taken away only where something is left.
  cases stack.dropWhile (·.operator?.isSome) with
  | nil => rfl
  | cons p below => rfl

/-- An operand is written as its entry, if it has one. It has a first character, and it is not taken
for a symbol. -/
theorem arrive_operand (store : Store) (waiting output : List (List Char)) {a : Operand}
    (h : (Token.operand a).WellFormed) :
    arrive store ⟨waiting, output⟩ a.text =
      .ok ⟨waiting, output ++ (a.emit? store).toList.map Entry.text⟩ := by
  obtain ⟨c, rest, htext⟩ := List.exists_cons_of_ne_nil (Operand.text_ne_nil h)
  have hfirst : first a.text = .ok c := by
    rw [htext]
    rfl
  have hverbatim : (Text.isDigit c || Numeral.isLiteral a.text) = a.isVerbatim := by
    rw [Operand.isVerbatim, htext]
    rfl
  have hoperator : (Postfix.operator? a.text).isSome = false := by
    cases ho : Postfix.operator? a.text with
    | none => rfl
    | some o =>
      exact absurd (Postfix.operator?_eq_some_iff.mp ho) (Operand.text_ne_symbol h (.op o))
  have hleft : a.text ≠ ['('] := Operand.text_ne_symbol h .leftParen
  have hright : a.text ≠ [')'] := Operand.text_ne_symbol h .rightParen
  unfold arrive
  simp only [hfirst, hverbatim, hleft, hright, hoperator, resolve_text h, bind, Except.bind, pure,
    Except.pure]
  rw [Operand.emit?]
  cases a.isVerbatim with
  | true => rfl
  | false =>
    cases a.value? store with
    | none => simp
    | some n => rfl

/-- The texts of the stack and of the entries follow the stack and the entries. -/
theorem arrive_text (store : Store) (stack : List Pending) (entries : List Entry) {t : Token}
    (h : t.WellFormed) :
    arrive store ⟨stack.map Pending.text, entries.map Entry.text⟩ t.text =
      .ok ⟨(pendingAfter stack t).map Pending.text,
        (entries ++ written store stack t).map Entry.text⟩ := by
  rw [List.map_append]
  rcases t with (o | _ | _) | a
  · rw [Postfix.written_op, Postfix.map_text_waiting_takeWhile rfl]
    exact arrive_op store stack _ o
  · rw [Postfix.written_leftParen, List.map_nil, List.append_nil]
    rfl
  · rw [Postfix.written_rightParen, Postfix.map_text_waiting_takeWhile rfl]
    exact arrive_rightParen store stack _
  · exact arrive_operand store _ _ h

/-- On a stack that holds anything but operators and parentheses, an operator may break down. -/
example : arrive .empty ⟨[['?']], []⟩ ['+'] = .error (.breakdown "no operator: ?") := rfl

/-- The texts of the stack and of the entries follow, while the tokens of a line arrive. -/
theorem foldlM_arrive (store : Store) (stack : List Pending) (entries : List Entry)
    {tokens : List Token} (h : ∀ t ∈ tokens, t.WellFormed) :
    (tokens.map Token.text).foldlM (arrive store)
        ⟨stack.map Pending.text, entries.map Entry.text⟩ =
      .ok ⟨(tokens.foldl pendingAfter stack).map Pending.text,
        (entries ++ writtenAll store stack tokens).map Entry.text⟩ := by
  induction tokens generalizing stack entries with
  | nil =>
    rw [writtenAll, List.append_nil]
    rfl
  | cons t tokens ih =>
    obtain ⟨ht, htokens⟩ := List.forall_mem_cons.mp h
    rw [List.map_cons, List.foldlM_cons, arrive_text store stack entries ht, writtenAll,
      ← List.append_assoc]
    exact ih (pendingAfter stack t) (entries ++ written store stack t) htokens

/-- While the tokens of a line that is converted arrive, only the texts of operators and of open
parentheses wait, in tiers. What has been written is the beginning of the entries of the line, and
the rest of them comes from the stack and the tokens that are left. -/
theorem tiered_of_convert {store : Store} {line : List Char} {c : Postfix.Conversion}
    (h : Postfix.convert store line = .ok c) {read rest : List Token}
    (hsplit : c.tokens = read ++ rest) :
    (read.map Token.text).foldlM (arrive store) ⟨[], []⟩ =
        .ok ⟨(pendingAfterAll read).map Pending.text,
          (writtenAll store [] read).map Entry.text⟩ ∧
      c.entries = writtenAll store [] read ++ entriesFrom store (pendingAfterAll read) rest ∧
      Postfix.Tiered read (pendingAfterAll read) := by
  obtain ⟨hconvertible, rfl⟩ := Calculator.convert_eq_ok_iff.mp h
  have hscan : Token.scan true line = read ++ rest := hsplit
  have hnesting : Token.nestingAfter? 0 (read ++ rest) = some 0 := by
    rw [← hscan, Token.nestingAfter?_scan]
    exact isBalanced_iff.mp hconvertible.1
  rw [Token.nestingAfter?_append] at hnesting
  obtain ⟨depth, hread, -⟩ := Option.bind_eq_some_iff.mp hnesting
  refine ⟨foldlM_arrive store [] [] fun t ht => ?_, ?_, Postfix.tiered_pendingAfterAll hread⟩
  · have hmem : t ∈ Token.scan true line := hscan ▸ List.mem_append_left _ ht
    exact Token.wellFormed_of_mem_scan hmem
  · change entriesFrom store [] (Token.scan true line) = _
    rw [hscan, Postfix.entriesFrom_append]
    rfl

/-- One open parenthesis and four operators: the stack is as high as it can be. -/
theorem tiered_of_convert_highest :
    ∃ c, Postfix.convert .empty "1+2*(3-4*5)".toList = .ok c ∧
      c.tokens = Token.scan true "1+2*(3-4*5".toList ++ [.symbol .rightParen] ∧
      Postfix.Tiered (Token.scan true "1+2*(3-4*5".toList)
        [.op .mul, .op .sub, .leftParen, .op .mul, .op .add] := by
  have hconvertible : Calculator.Convertible "1+2*(3-4*5)".toList :=
    ⟨by decide +kernel, by decide +kernel, by decide +kernel⟩
  have hconvert := Calculator.convert_of_convertible hconvertible .empty
  have htokens : Token.scan true "1+2*(3-4*5)".toList =
      Token.scan true "1+2*(3-4*5".toList ++ [.symbol .rightParen] := by decide +kernel
  have hstack : pendingAfterAll (Token.scan true "1+2*(3-4*5".toList) =
      [.op .mul, .op .sub, .leftParen, .op .mul, .op .add] := by decide +kernel
  exact ⟨_, hconvert, htokens, hstack ▸ (tiered_of_convert hconvert htokens).2.2⟩

/-- A line comes to the same postfix text. -/
theorem convert_eq (store : Store) (line : List Char) :
    convert store line = refusing ((Postfix.convert store line).map (·.text)) := by
  by_cases hbalanced : isBalanced line = true
  · rw [convert, Postfix.convert, if_pos hbalanced, if_pos hbalanced]
    cases htokens : Token.ofLine line with
    | error e => rfl
    | ok tokens =>
      obtain ⟨-, rfl⟩ := Token.ofLine_eq_ok_iff.mp htokens
      have hrun := foldlM_arrive store [] []
        fun t (ht : t ∈ Token.scan true line) => Token.wellFormed_of_mem_scan ht
      have hentries := Postfix.entriesFrom_append store [] (Token.scan true line) []
      rw [List.append_nil] at hentries
      -- The parentheses of the line are those of its tokens, and none of them is left waiting.
      have hclosed : Token.nestingAfter? 0 (Token.scan true line) = some 0 := by
        rw [Token.nestingAfter?_scan]
        exact isBalanced_iff.mp hbalanced
      have hwaiting := Postfix.map_text_waiting (leftParen_not_mem_pendingAfterAll hclosed)
      calc (((Token.scan true line).map Token.text).foldlM (arrive store) ⟨[], []⟩ >>= fun s =>
            Except.ok (List.intercalate [' '] (s.written ++ s.waiting)))
          = .ok (List.intercalate [' ']
              ((writtenAll store [] (Token.scan true line)).map Entry.text ++
                (pendingAfterAll (Token.scan true line)).map Pending.text)) :=
            congrArg (· >>= _) hrun
        _ = .ok (Postfix.render (entriesFrom store [] (Token.scan true line))) := by
            rw [Postfix.render, hentries, List.map_append, ← hwaiting]
            rfl
  · rw [convert, Postfix.convert, if_neg hbalanced, if_neg hbalanced]
    rfl

/-! ### Values -/

/-- One piece. Two values are there where they are taken, and a literal without its fraction is an
integer. -/
theorem apply_eq (stack : List Int) (piece : List Char) :
    apply stack piece = refusing (Postfix.apply stack piece) := by
  cases hliteral : Numeral.literal? piece with
  | some n =>
    have hinteger : integer (piece.takeWhile (· != '.')) = .ok n := by
      rw [integer, Numeral.integer?_takeWhile hliteral]
    rw [apply, Postfix.apply_of_literal hliteral, Numeral.isLiteral, hliteral,
      if_pos (Option.isSome_some), hinteger]
    rfl
  | none =>
    rw [apply, Numeral.isLiteral, hliteral, if_neg (by simp)]
    by_cases hshort : stack.length < 2
    · rw [if_pos hshort, Postfix.apply_of_short hliteral (Or.inl hshort)]
      rfl
    · rw [if_neg hshort]
      -- The stack is not short, so neither of the two values is missing.
      obtain ⟨right, left, rest, rfl⟩ : ∃ right left rest, stack = right :: left :: rest := by
        rcases stack with _ | ⟨right, _ | ⟨left, rest⟩⟩
        · exact absurd Nat.zero_lt_two hshort
        · exact absurd Nat.one_lt_two hshort
        · exact ⟨right, left, rest, rfl⟩
      simp only [pop, bind, Except.bind]
      cases hoperator : Postfix.operator? piece with
      | none =>
        have hpiece : ∀ o : Operator, piece ≠ [o.char] := by
          rintro o rfl
          rw [Postfix.operator?_char] at hoperator
          cases hoperator
        rw [Postfix.apply_of_short hliteral (Or.inr hpiece)]
        rfl
      | some o =>
        rw [Postfix.operator?_eq_some_iff.mp hoperator, Postfix.apply_operator]
        dsimp only
        cases o.apply left right <;> rfl

/-- A postfix text has the same value. -/
theorem evaluate_eq (text : List Char) : evaluate text = refusing (Postfix.evaluate text) := by
  rw [evaluate, Postfix.evaluate, Postfix.run, refusing_bind, foldlM_eq_refusing apply_eq]
  refine congrArg _ (funext fun stack => ?_)
  -- The value is taken from the stack only if it is alone there.
  rcases stack with _ | ⟨n, _ | ⟨m, rest⟩⟩
  · rfl
  · rfl
  · rw [if_neg (by simp)]
    rfl

/-! ### Statements -/

/-- A statement makes the same assignment. Values are looked up only under names that have one. -/
theorem assign_eq (store : Store) (statement : String) :
    assign store statement = refusing (Assignment.read store statement) := by
  rw [assign, Assignment.read]
  obtain ⟨name, source⟩ := Assignment.sides statement.toList
  dsimp only
  rw [Assignment.sourceValue, Store.contains, integer, value, Numeral.isInteger]
  cases isIdentifier name with
  | false => rfl
  | true =>
    cases Numeral.integer? source with
    | some n => rfl
    | none =>
      cases isIdentifier source with
      | false => rfl
      | true => cases store.get? (String.ofList source) <;> rfl

/-- A statement has the same effect. -/
theorem execute_eq (store : Store) (statement : String) :
    execute store statement = refusing (Calculator.execute store statement) := by
  rw [execute, Calculator.execute]
  split
  · rw [assign_eq]
    cases Assignment.read store statement <;> rfl
  · rw [convert_eq, Calculator.evaluate]
    cases Postfix.convert store statement.toList with
    | error e => rfl
    | ok c =>
      change (evaluate c.text >>= _) = refusing ((Postfix.evaluate c.text).map _)
      rw [evaluate_eq]
      cases Postfix.evaluate c.text <;> rfl

end Session.Bare

/-- The calculator on bare texts is the calculator, so it never breaks down. -/
theorem Session.bare_eq_standard : bare = standard := by
  funext store statement
  rw [bare, Bare.execute_eq]
  rfl

end DeskCalc
