import DeskCalc.Proofs.Calculator.Replacement
import DeskCalc.Proofs.Calculator.Substitution

/-!
# Names stand for their values

A name that is set may be replaced by its value on any line, whether the line has a value or is
refused. If the value is not negative, its digits take the place of the name as a word of their own,
and a sign that was folded into the name is folded into them. A negative value brings a sign, so it
is put between parentheses, and only where no sign is folded into the name, as parentheses take no
sign.

## Main definitions

* `Calculator.withLiteral` — a line with the value of a name in the place of the name
* `Calculator.withEnclosed` — the same with parentheses, where no sign is folded into the name

## Main results

* `evaluate_replace_atom` — literals and names with the same value may be exchanged
* `evaluate_enclosed_word` — a word may be enclosed unless a sign is folded into it
* `evaluate_transparent` — a line has the value that it has with the value of a name for the name
-/

namespace DeskCalc

open Piece (Closes IsWord Opens replaceWords)
open Postfix (Entry entriesFrom)

/-! ### Atoms with the same value -/

/-- Operands of the same sign are interchangeable if their atoms have the same value. -/
theorem Atom.interchangeable {store store' : Store} {a b : Atom} (ha : a.WellFormed)
    (hb : b.WellFormed) (hseta : a.IsSet store) (hsetb : b.IsSet store')
    (hvalue : b.value store' = a.value store) (negated : Bool) :
    Operand.Interchangeable store store' ⟨negated, a.text⟩ ⟨negated, b.text⟩ := by
  have hoperand : ∀ c : Atom, Operand.mk negated c.text =
      Factor.operand ⟨if negated then [.minus] else [], c⟩ := by
    intro c
    cases negated <;> rfl
  have hvalues : ∀ signs, Factor.value store' ⟨signs, b⟩ = Factor.value store ⟨signs, a⟩ := by
    intro signs
    rw [Factor.value, Factor.value, hvalue]
  intro stack
  have hpushed := @Factor.run_operand store' ⟨if negated then [.minus] else [], b⟩ hb hsetb stack
  rw [hvalues] at hpushed
  rw [hoperand a, hoperand b]
  exact hpushed.trans (@Factor.run_operand store ⟨_, a⟩ ha hseta stack).symm

namespace Calculator

variable {store : Store}

/-- Literals and names with the same value may be exchanged: the line has the same value or is
refused in the same way, whatever else stands in it. -/
theorem evaluate_replace_atom {a b : Atom} (ha : a.WellFormed) (hb : b.WellFormed)
    (hseta : a.IsSet store) (hsetb : b.IsSet store) (hvalue : b.value store = a.value store)
    (line : List Char) :
    evaluate store
        (String.ofList (replaceWords (fun _ w => if w = a.text then b.text else w) line)) =
      evaluate store (String.ofList line) := by
  -- Words stay words and take signs as before, so only the operands of the atom are to be compared.
  refine evaluate_replaceWords (fun w hw => ?_) (fun w => ?_) fun c _ => ?_
  · split
    · exact Atom.isWord_text hb
    · exact hw
  · split
    · next h => rw [h, Atom.takesSign_text ha, Atom.takesSign_text hb]
    · rfl
  · obtain ⟨negated, word⟩ := c
    rw [Operand.mapWord]
    split
    · next h =>
      have hword : word = a.text := h
      rw [hword]
      exact Atom.interchangeable ha hb hseta hsetb hvalue negated
    · exact Operand.interchangeable_of_emit? rfl

/-! ### Words between parentheses -/

/-- A word into which no sign is folded brings the same pieces with parentheses around it. -/
theorem piecesOf_enclosed_word {before w behind : List Char} (hbefore : Opens before)
    (hw : IsWord w) (hbehind : Closes behind)
    (h : Token.endsInFreeSign true (Token.scan true before) = false) :
    piecesOf store (before ++ '(' :: (w ++ ')' :: behind)) =
      piecesOf store (before ++ (w ++ behind)) := by
  -- The parenthesis that waits on top of the stack is taken off right behind the operand.
  have henclosed := @Postfix.entriesFrom_enclosed store [] [.operand ⟨false, w⟩] rfl
    (Postfix.pendingAfterAll (Token.scan true before)) (Token.scan false behind)
  have hown : entriesFrom store [] [.operand ⟨false, w⟩] =
      (Operand.emit? ⟨false, w⟩ store).toList := by
    rw [Postfix.entriesFrom_cons, Postfix.written_operand]
    exact List.append_nil _
  rw [List.nil_append, hown] at henclosed
  rw [piecesOf, piecesOf, scan_enclosed, Token.scan_word hw,
    Token.scan_append_word hbefore hw hbehind h, Postfix.entriesFrom_append,
    Postfix.entriesFrom_append, ← Postfix.pendingAfterAll, Postfix.entriesFrom_cons,
    Postfix.written_leftParen, Postfix.pendingAfter_leftParen, List.nil_append, henclosed]
  rfl

/-- A word may be enclosed in parentheses unless a sign is folded into it. -/
theorem evaluate_enclosed_word {before w behind : List Char} (hbefore : Opens before)
    (hw : IsWord w) (hbehind : Closes behind)
    (h : Token.endsInFreeSign true (Token.scan true before) = false) :
    evaluate store (String.ofList (before ++ '(' :: (w ++ ')' :: behind))) =
      evaluate store (String.ofList (before ++ (w ++ behind))) := by
  have hconvertible : Convertible w := by
    have halone := (convertible_append_word_iff hw [] []).mpr ⟨rfl, by simp [Signs.Undoubled]⟩
    rwa [List.append_nil] at halone
  refine evaluate_congr ?_ fun _ => ?_
  · rw [convertible_enclosed_iff hconvertible, convertible_append_word_iff hw]
  · rw [piecesOf_enclosed_word hbefore hw hbehind h]

/-! ### Names and their values -/

/-- The line with the decimal text of `v` in the place of every word `x`. -/
def withLiteral (x : String) (v : Int) (line : String) : String :=
  String.ofList (replaceWords
    (fun _ w => if w = x.toList then Numeral.render v else w) line.toList)

/-- The line with the decimal text of `v`, between parentheses, in the place of every word `x` into
which no sign is folded. A sign is folded into a name exactly if the tokens of the text in front of
the name end in a free sign (`Token.scan_append_word`, `Token.exists_scan_append_word`). -/
def withEnclosed (x : String) (v : Int) (line : String) : String :=
  String.ofList (replaceWords
    (fun before w =>
      if w = x.toList ∧ Token.endsInFreeSign true (Token.scan true before) = false then
        '(' :: (Numeral.render v ++ [')'])
      else w) line.toList)

variable {x : String} {v : Int}

/-- The decimal text of a value that is not negative may take the place of the name. -/
theorem evaluate_withLiteral (hx : isIdentifier x.toList = true) (hget : store.get? x = some v)
    (hv : 0 ≤ v) (line : String) : evaluate store (withLiteral x v line) = evaluate store line := by
  obtain ⟨n, rfl⟩ := Int.eq_ofNat_of_zero_le hv
  have hrender : Numeral.render n = Nat.toDigits 10 n := by
    rw [Numeral.render, if_neg (by omega), Int.natAbs_natCast]
  have hset : (Atom.name x.toList).IsSet store := by
    rw [Atom.IsSet, String.ofList_toList, Store.contains, hget]
    rfl
  have hvalue : (Atom.literal (Nat.toDigits 10 n) none).value store =
      (Atom.name x.toList).value store := by
    rw [Atom.value, Atom.value, String.ofList_toList, hget, Option.getD_some,
      Nat.ofDigitChars_toDigits (by decide) (by decide)]
  -- The name and the digits of its value are two atoms with the same value.
  have hatoms := @evaluate_replace_atom store (.name x.toList) (.literal (Nat.toDigits 10 n) none)
    hx (Numeral.isDigits_toDigits n) hset trivial hvalue line.toList
  rw [String.ofList_toList] at hatoms
  rw [withLiteral, hrender]
  exact hatoms

/-- The decimal text of any value, between parentheses, may take the place of the name where no sign
is folded into the name. -/
theorem evaluate_withEnclosed (hx : isIdentifier x.toList = true) (hget : store.get? x = some v)
    (line : String) : evaluate store (withEnclosed x v line) = evaluate store line := by
  have hname : evaluate store (String.ofList x.toList) = .ok v :=
    evaluate_name hx (by rwa [String.ofList_toList])
  -- One name after the other: it is enclosed, and then its value takes its place.
  refine (Piece.apply_replaceWords (P := fun s => evaluate store (String.ofList s))
    (fun before w behind hbefore hw hbehind => ?_) line.toList).trans ?_
  · split
    · next h =>
      obtain ⟨rfl, hfree⟩ := h
      rw [List.cons_append, List.append_assoc, List.singleton_append,
        evaluate_enclosed_congr (evaluate_render store v) hname]
      exact evaluate_enclosed_word hbefore hw hbehind hfree
    · rfl
  · rw [String.ofList_toList]

/-- A line has the same value, or is refused in the same way, with the value of a name in the place
of the name: as digits if the value is not negative, and between parentheses wherever no sign is
folded into the name. -/
theorem evaluate_transparent (hx : isIdentifier x.toList = true) (hget : store.get? x = some v)
    (line : String) :
    (0 ≤ v → evaluate store (withLiteral x v line) = evaluate store line) ∧
      evaluate store (withEnclosed x v line) = evaluate store line :=
  ⟨fun hv => evaluate_withLiteral hx hget hv line, evaluate_withEnclosed hx hget line⟩

/-- The first name takes the minus sign, so it gets no parentheses; the last one does, since the
signs in front of it are merged to an operator. A negative value brings a sign of its own. -/
theorem evaluate_transparent_mixed :
    withLiteral "x" 4 "-x*( x)--x" = "-4*( 4)--4" ∧
      withEnclosed "x" (-4) "-x*( x)--x" = "-x*( (-4))--(-4)" ∧
      evaluate (Store.empty.put "x" 4) (withLiteral "x" 4 "-x*( x)--x") =
        evaluate (Store.empty.put "x" 4) "-x*( x)--x" ∧
      evaluate (Store.empty.put "x" 4) "-x*( x)--x" = .ok (-12) ∧
      evaluate (Store.empty.put "x" (-4)) (withEnclosed "x" (-4) "-x*( x)--x") =
        evaluate (Store.empty.put "x" (-4)) "-x*( x)--x" ∧
      evaluate (Store.empty.put "x" (-4)) "-x*( x)--x" = .ok (-20) := by
  have hname : isIdentifier "x".toList = true := by decide
  have hliteral :=
    (evaluate_transparent hname (Store.get?_put_self .empty "x" 4) "-x*( x)--x").1 (by decide)
  have henclosed :=
    (evaluate_transparent hname (Store.get?_put_self .empty "x" (-4)) "-x*( x)--x").2
  refine ⟨?_, ?_, hliteral, ?_, henclosed, ?_⟩
  · decide +kernel
  · decide +kernel
  · decide +kernel
  · decide +kernel

end Calculator

end DeskCalc
