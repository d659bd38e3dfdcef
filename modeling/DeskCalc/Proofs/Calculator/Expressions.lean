import DeskCalc.Proofs.Expr.Grammar
import DeskCalc.Proofs.Calculator.Lines
import DeskCalc.Proofs.Expr.Merging
import DeskCalc.Proofs.Postfix.Operands
import DeskCalc.Proofs.Postfix.Ordering

/-!
# The value of an expression

A line that spells a grouped expression has the value of that expression. Merging the signs of the
line yields the pieces of an expression with the same value and at most one sign in front of each
atom; folding these signs yields its tokens; and the tokens are converted to its post-order, over
which a run yields its value.

## Main definitions

* `Factor.operand` — the operand that a factor is folded into

## Main results

* `foldSigns_pieces` — the tokens of an expression with single signs
* `run_operand` — what is written for a factor pushes its value
* `evaluate_of_spells`, `evaluate_of_spaced` — a line that spells an expression has its value
* `evaluate_of_integer?`, `evaluate_name` — the values of single integers and names
-/

namespace DeskCalc

open Postfix (Entry run)

/-- The operand that a factor is folded into. -/
def Factor.operand (f : Factor) : Operand := ⟨decide (Sign.ofRun f.signs = .minus), f.atom.text⟩

namespace Token

/-- In the pieces of an expression every sign is folded into the atom behind it. -/
theorem foldSigns_pieces {e : Expr Factor} (hatoms : ∀ f ∈ e.operands, f.atom.WellFormed)
    (hsigns : ∀ f ∈ e.operands, f.signs.length ≤ 1) (rest : List Piece) :
    foldSigns true (e.pieces ++ rest) = e.tokens Factor.operand ++ foldSigns false rest := by
  induction e generalizing rest with
  | operand f =>
    obtain ⟨signs, atom⟩ := f
    have htakes : takesSign atom.text = true :=
      Atom.takesSign_text (hatoms _ (List.mem_singleton_self _))
    have hlength : signs.length ≤ 1 := hsigns _ (List.mem_singleton_self _)
    match signs, hlength with
    | [], _ => exact foldSigns_cons (fun _ _ => rfl) rest
    | [s], _ =>
      -- An operand is due, so the sign is folded into the atom and nothing is due behind it.
      have hsigned : signed? (.symbol (.op s.operator)) (.word atom.text) =
          some (operand (Factor.operand ⟨[s], atom⟩)) := by
        cases s <;> simp [signed?, Sign.operator, htakes, Factor.operand, Sign.ofRun]
      change foldSigns true (.symbol (.op s.operator) :: .word atom.text :: rest) = _
      rw [foldSigns, if_pos rfl, hsigned]
      rfl
  | paren e ih =>
    rw [Expr.pieces_paren, Expr.tokens_paren, List.cons_append, List.append_assoc,
      foldSigns_cons fun _ => signed?_separator rfl]
    change _ :: foldSigns true _ = _
    rw [ih hatoms hsigns, List.singleton_append, foldSigns_false_cons, List.cons_append,
      List.append_assoc]
    rfl
  | binary o left right ihl ihr =>
    rw [Expr.pieces_binary, Expr.tokens_binary, List.append_assoc,
      ihl (fun f hf => hatoms f (List.mem_append_left _ hf))
        (fun f hf => hsigns f (List.mem_append_left _ hf)),
      List.cons_append, foldSigns_false_cons]
    change _ ++ _ :: foldSigns true _ = _
    rw [ihr (fun f hf => hatoms f (List.mem_append_right _ hf))
        (fun f hf => hsigns f (List.mem_append_right _ hf)), List.append_assoc, List.cons_append]
    rfl

end Token

namespace Factor

variable {store : Store} {signs : List Sign}

/-- The operand of a factor reads as the value of the factor, if its atom is a literal. -/
theorem literal?_text_operand {whole : List Char} {fraction : Option (List Char)}
    (h : (Atom.literal whole fraction).WellFormed) :
    Numeral.literal? (operand ⟨signs, .literal whole fraction⟩).text =
      some (value store ⟨signs, .literal whole fraction⟩) := by
  have hunsigned := Atom.unsigned?_text h
  rw [Numeral.literal?_eq_some_iff, value_eq]
  cases hrun : Sign.ofRun signs with
  | plus =>
    refine Or.inl ⟨_, ?_, rfl⟩
    simpa [operand, Operand.text, hrun] using hunsigned
  | minus =>
    refine Or.inr ⟨_, _, ?_, hunsigned, rfl⟩
    simp [operand, Operand.text, hrun]

/-- The operand of a factor has the value of the factor, if its atom is a name that is set. -/
theorem value?_operand {letters : List Char} (h : (Atom.name letters).IsSet store) :
    (operand ⟨signs, .name letters⟩).value? store = some (value store ⟨signs, .name letters⟩) := by
  obtain ⟨v, hv⟩ := Option.isSome_iff_exists.mp h
  have hget : store.get? (String.ofList (operand ⟨signs, .name letters⟩).word) = some v := hv
  have hatom : (Atom.name letters).value store = v := by rw [Atom.value, hv, Option.getD_some]
  rw [value_eq, hatom, Operand.value?, hget, Option.map_some]
  cases hrun : Sign.ofRun signs <;> simp [operand, hrun, Sign.times]

/-- What is written for a factor pushes its value. -/
theorem run_operand {f : Factor} (hf : f.atom.WellFormed) (hset : f.atom.IsSet store)
    (stack : List Int) :
    run stack ((f.operand.emit? store).toList.flatMap Entry.pieces) =
      .ok (f.value store :: stack) := by
  -- Literal or name, one piece is written, and it reads as the value of the factor.
  obtain ⟨piece, hpieces, hvalue⟩ : ∃ piece,
      (f.operand.emit? store).toList.flatMap Entry.pieces = [piece] ∧
        Numeral.literal? piece = some (f.value store) := by
    obtain ⟨signs, ⟨whole, fraction⟩ | letters⟩ := f
    · have hliteral := @literal?_text_operand store signs _ _ hf
      have hsome := Option.isSome_iff_exists.mpr ⟨_, hliteral⟩
      obtain ⟨hne, hspace⟩ := Numeral.space_not_mem_of_isLiteral hsome
      refine ⟨_, ?_, hliteral⟩
      rw [Operand.emit?_of_isLiteral hsome, Option.toList_some, List.flatMap_singleton,
        Entry.pieces_literal hne hspace]
    · have hname : isIdentifier (operand ⟨signs, .name letters⟩).word = true := hf
      refine ⟨_, ?_, Numeral.literal?_render _⟩
      rw [Operand.emit?_of_isIdentifier hname, value?_operand hset, Option.map_some,
        Option.toList_some, List.flatMap_singleton, Entry.pieces_value]
  rw [hpieces, Postfix.run_cons, Postfix.apply_of_literal hvalue]
  rfl

end Factor

namespace Calculator

/-- A line that spells a grouped expression has the value of the expression, if all its names are
set. -/
theorem evaluate_of_spells {store : Store} {e : Expr Factor} {line : String}
    (hgrouped : e.Grouped) (hset : ∀ f ∈ e.operands, f.atom.IsSet store)
    (hspells : e.Spells line.toList) : evaluate store line = e.eval (Factor.value store) := by
  obtain ⟨e', hmerged, hpieces⟩ := Expr.exists_merged hspells hgrouped
  -- Merging the signs leaves the atoms alone, so they are still well-formed and set.
  have hatoms' : ∀ f' ∈ e'.operands, f'.atom.WellFormed ∧ f'.atom.IsSet store := by
    intro f' hf'
    have hmem : f'.atom ∈ e'.operands.map Factor.atom := List.mem_map_of_mem hf'
    rw [hmerged.atoms_eq] at hmem
    obtain ⟨f, hf, heq⟩ := List.mem_map.mp hmem
    rw [← heq]
    exact ⟨hspells.wellFormed f hf, hset f hf⟩
  have hscan : Token.scan true line.toList = e'.tokens Factor.operand := by
    have hfold := Token.foldSigns_pieces (fun f hf => (hatoms' f hf).1) hmerged.signs_le []
    rw [List.append_nil] at hfold
    rw [Token.scan, hpieces, hfold]
    exact List.append_nil _
  have hrun := Postfix.run_tokens (hmerged.grouped hgrouped) fun f hf =>
    Factor.run_operand (hatoms' f hf).1 (hatoms' f hf).2
  rw [evaluate_of_convertible ⟨Expr.isBalanced_of_scan hscan, hspells.undoubled⟩, piecesOf, hscan,
    hrun, hmerged.eval_eq, Sign.map_times_plus]
  cases e'.eval (Factor.value store) <;> rfl

/-- A line that consists of the texts of a grouped expression with blanks around them has the value
of the expression if all its names are set. Only a division by zero keeps it from having a value. -/
theorem evaluate_of_spaced {store : Store} {e : Expr Factor} {line : String}
    (hgrouped : e.Grouped) (hatoms : ∀ f ∈ e.operands, f.atom.WellFormed)
    (hset : ∀ f ∈ e.operands, f.atom.IsSet store) (hline : Spaced e.lexemes line.toList) :
    evaluate store line = e.eval (Factor.value store) ∧
      ∀ err, evaluate store line = .error err ↔
        e.HasZeroDivisor (Factor.value store) ∧ err = .divisionByZero := by
  have hvalue := evaluate_of_spells hgrouped hset (Expr.spells_of_spaced hatoms hline)
  refine ⟨hvalue, fun err => ?_⟩
  rw [hvalue, Expr.eval_eq_error_iff]

/-- The difference and the sign of the name behind it are merged, and the value is that of the
difference still: from 5 the quotient of -7 and 2 is taken away, which is -3. -/
theorem evaluate_of_spaced_glued :
    evaluate (Store.empty.put "x" 7) "5--x / (2.5) " =
        (Expr.binary .sub (.operand ⟨[], .literal ['5'] none⟩)
          (.binary .div (.operand ⟨[.minus], .name ['x']⟩)
            (.paren (.operand ⟨[], .literal ['2'] (some ['5'])⟩)))).eval
          (Factor.value (Store.empty.put "x" 7)) ∧
      evaluate (Store.empty.put "x" 7) "5--x / (2.5) " = .ok 8 := by
  have hline : Spaced [['5'], ['-'], ['-'], ['x'], ['/'], ['('], ['2', '.', '5'], [')']]
      ['5', '-', '-', 'x', ' ', '/', ' ', '(', '2', '.', '5', ')', ' '] := by
    have hnone : ∀ c ∈ ([] : List Char), Text.isBlank c = true := by simp
    have hspace : ∀ c ∈ [' '], Text.isBlank c = true := by
      intro c hc
      rw [List.mem_singleton.mp hc]
      decide
    exact .cons hnone (.cons hnone (.cons hnone (.cons hnone (.cons hspace (.cons hspace
      (.cons hnone (.cons hnone (.nil hspace))))))))
  suffices hvalue : evaluate (Store.empty.put "x" 7) "5--x / (2.5) " = _ from
    ⟨hvalue, hvalue.trans rfl⟩
  refine And.left (evaluate_of_spaced ?_ ?_ ?_ hline)
  · -- The difference is a sum, the quotient a term, and what stands in parentheses a factor.
    exact Expr.grouped_iff_isSum.mpr (.binary (.inr rfl) (.term (.factor (.operand _)))
      (.binary (.inr rfl) (.factor (.operand _)) (.paren (.term (.factor (.operand _))))))
  · decide +kernel
  · decide +kernel

/-! ### Single operands -/

/-- A line of a single factor has the value of this factor. -/
theorem evaluate_factor {store : Store} {f : Factor} (hf : f.atom.WellFormed)
    (hset : f.atom.IsSet store) :
    evaluate store (String.ofList (f.signs.map Sign.char ++ f.atom.text)) =
      .ok (f.value store) := by
  have hspells : (Expr.operand f).Spells (f.signs.map Sign.char ++ f.atom.text) := by
    have hnone : ∀ c ∈ ([] : List Char), Text.isBlank c = true := by simp
    simpa using @Expr.Spells.operand f [] [] [] hf hnone hnone hnone
  have hgrouped : (Expr.operand f).Grouped := trivial
  exact evaluate_of_spells hgrouped (List.forall_mem_singleton.mpr hset)
    (by rwa [String.toList_ofList])

theorem evaluate_of_integer? {s : List Char} {n : Int} (h : Numeral.integer? s = some n)
    (store : Store) : evaluate store (String.ofList s) = .ok n := by
  obtain ⟨digits, hdigits, ⟨rfl, rfl⟩ | ⟨rfl, rfl⟩⟩ := Numeral.integer?_eq_some_iff.mp h
  · exact @evaluate_factor store ⟨[], .literal s none⟩ hdigits trivial
  · exact @evaluate_factor store ⟨[.minus], .literal digits none⟩ hdigits trivial

theorem evaluate_render (store : Store) (n : Int) :
    evaluate store (String.ofList (Numeral.render n)) = .ok n :=
  evaluate_of_integer? (Numeral.integer?_render n) store

theorem evaluate_name {store : Store} {x : List Char} {v : Int} (hx : isIdentifier x = true)
    (hv : store.get? (String.ofList x) = some v) :
    evaluate store (String.ofList x) = .ok v := by
  have hset : store.contains (String.ofList x) = true := by rw [Store.contains, hv]; rfl
  have hvalue : (Atom.name x).value store = v := by rw [Atom.value, hv, Option.getD_some]
  have hname := @evaluate_factor store ⟨[], .name x⟩ hx hset
  exact hname.trans (congrArg _ hvalue)

end Calculator

end DeskCalc
