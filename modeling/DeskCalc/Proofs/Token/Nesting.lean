import DeskCalc.Balance
import DeskCalc.Proofs.Signs.Collapse
import DeskCalc.Proofs.Signs.Doubled
import DeskCalc.Token

/-!
# Tokens and parentheses

Parentheses cut a line into parts that become tokens independently of each other: merging signs does
not reach across them, and no sign is folded over one. So the tokens open and close exactly the
parentheses of the line.

## Main definitions

* `Token.scan` — the tokens of a line without doubled `*` and `/`
* `Token.nestingAfter?` — how many parentheses are open after a list of tokens

## Main results

* `scan_append_symbol` — a symbol that is no sign separates the tokens on its two sides
* `nestingAfter?_scan` — the tokens of a line nest as the line does
* `ofLine_eq_ok_iff` — which lines have tokens, and which tokens these are
-/

namespace DeskCalc

/-- The symbol is neither a plus nor a minus. -/
def Symbol.isSeparator : Symbol → Bool
  | .op .add => false
  | .op .sub => false
  | _ => true

theorem Symbol.isSign_char (s : Symbol) : Signs.isSign s.char = !s.isSeparator := by
  rcases s with (_ | _ | _ | _) | _ | _ <;> rfl

namespace Token

/-- The tokens of a line without doubled `*` and `/`, where `due` says whether an operand is due at
its front. -/
def scan (due : Bool) (line : List Char) : List Token :=
  foldSigns due (Piece.ofLine (Signs.collapse line))

/-! ### Folding signs in parts -/

/-- A piece that does not fold with the one behind it is a token of its own. -/
theorem foldSigns_cons_of_head? {due : Bool} {p : Piece} {rest : List Piece}
    (h : due = true → ∀ q, rest.head? = some q → signed? p q = none) :
    foldSigns due (p :: rest) = ofPiece p :: foldSigns (ofPiece p).awaitsOperand rest := by
  cases rest with
  | nil => rw [foldSigns, foldSigns]
  | cons q rest =>
    rw [foldSigns]
    cases due with
    | false => rfl
    | true => rw [if_pos rfl, h rfl q rfl]

theorem foldSigns_cons {due : Bool} {p : Piece}
    (h : due = true → ∀ q, signed? p q = none) (rest : List Piece) :
    foldSigns due (p :: rest) = ofPiece p :: foldSigns (ofPiece p).awaitsOperand rest :=
  foldSigns_cons_of_head? fun hdue q _ => h hdue q

theorem foldSigns_false_cons (p : Piece) (rest : List Piece) :
    foldSigns false (p :: rest) = ofPiece p :: foldSigns (ofPiece p).awaitsOperand rest :=
  foldSigns_cons (fun h => absurd h (by decide)) rest

theorem signed?_separator {s : Symbol} (h : s.isSeparator = true) (q : Piece) :
    signed? (.symbol s) q = none := by
  unfold signed?
  split <;> simp_all [Symbol.isSeparator]

theorem signed?_symbol (p : Piece) (s : Symbol) : signed? p (.symbol s) = none := by
  unfold signed?
  split <;> simp_all

/-- Only an operator and a word make an operand. -/
theorem exists_of_signed?_eq_some {p q : Piece} {t : Token} (h : signed? p q = some t) :
    ∃ o w a, p = .symbol (.op o) ∧ q = .word w ∧ t = operand a := by
  unfold signed? at h
  split at h
  · obtain ⟨-, ht⟩ := Option.ite_none_right_eq_some.mp h
    exact ⟨.add, _, _, rfl, rfl, (Option.some.inj ht).symm⟩
  · obtain ⟨-, ht⟩ := Option.ite_none_right_eq_some.mp h
    exact ⟨.sub, _, _, rfl, rfl, (Option.some.inj ht).symm⟩
  · cases h

/-- A symbol that is no sign separates the pieces that are folded before it from those that are
folded behind it. -/
theorem foldSigns_append_symbol {s : Symbol} (hs : s.isSeparator = true) (due : Bool)
    (before behind : List Piece) :
    foldSigns due (before ++ .symbol s :: behind) =
      foldSigns due before ++ symbol s :: foldSigns (symbol s).awaitsOperand behind := by
  -- Whatever is due at the symbol, it is a token of its own.
  have hsymbol : ∀ due, foldSigns due (.symbol s :: behind) =
      symbol s :: foldSigns (symbol s).awaitsOperand behind := fun due =>
    foldSigns_cons (fun _ => signed?_separator hs) behind
  fun_induction foldSigns due before with
  | case1 due => exact hsymbol due
  | case2 due p =>
    have hfold : (if due then signed? p (.symbol s) else none) = none := by
      rw [signed?_symbol, ite_self]
    rw [List.singleton_append, foldSigns, hfold]
    simp only [hsymbol, List.singleton_append]
  | case3 due p q rest t ht ih =>
    rw [List.cons_append, List.cons_append, foldSigns, ht]
    simp only [ih, List.cons_append]
  | case4 due p q rest hnone ih =>
    rw [List.cons_append, List.cons_append, foldSigns, hnone]
    simp only [← List.cons_append, ih]

/-- A symbol that is no sign separates the tokens of the text before it from those of the text
behind it. -/
theorem scan_append_symbol {s : Symbol} (hs : s.isSeparator = true) (due : Bool)
    (before behind : List Char) :
    scan due (before ++ s.char :: behind) =
      scan due before ++ symbol s :: scan (symbol s).awaitsOperand behind := by
  have hsign : Signs.isSign s.char = false := by rw [Symbol.isSign_char, hs, Bool.not_true]
  rw [scan, Signs.collapse_append_cons hsign, Piece.ofLine_append_symbol,
    foldSigns_append_symbol hs]
  rfl

/-- The tokens of a line are scanned from its start, where an operand is due. -/
theorem ofLine_eq_ok_iff {line : List Char} {tokens : List Token} :
    ofLine line = .ok tokens ↔ Signs.Undoubled line ∧ tokens = scan true line := by
  by_cases h : ['*', '*'] <:+: line ∨ ['/', '/'] <:+: line
  · rw [ofLine_eq_error_iff.mpr ⟨h, rfl⟩]
    simp only [reduceCtorEq, false_iff, not_and]
    intro hundoubled
    exact absurd h (not_or.mpr hundoubled)
  · obtain ⟨hstar, hslash⟩ := not_or.mp h
    rw [ofLine_eq_ok hstar hslash, Signs.settle_eq_collapse]
    simp [Signs.Undoubled, hstar, hslash, scan, eq_comm]

/-! ### Open parentheses -/

/-- How many parentheses are open after one more token; none can be closed at depth zero. -/
def nestingStep? (depth : Nat) : Token → Option Nat
  | symbol .leftParen => some (depth + 1)
  | symbol .rightParen =>
    match depth with
    | 0 => none
    | outer + 1 => some outer
  | _ => some depth

/-- How many parentheses are open after tokens that begin at the given depth. -/
def nestingAfter? (depth : Nat) (tokens : List Token) : Option Nat :=
  tokens.foldlM nestingStep? depth

@[simp] theorem nestingAfter?_nil (depth : Nat) : nestingAfter? depth [] = some depth := rfl

@[simp] theorem nestingAfter?_cons (depth : Nat) (t : Token) (tokens : List Token) :
    nestingAfter? depth (t :: tokens) =
      (nestingStep? depth t).bind fun d => nestingAfter? d tokens := rfl

theorem nestingAfter?_append (depth : Nat) (tokens more : List Token) :
    nestingAfter? depth (tokens ++ more) =
      (nestingAfter? depth tokens).bind fun d => nestingAfter? d more := by
  simp [nestingAfter?]

theorem nestingStep?_add {depth d : Nat} {t : Token} (h : nestingStep? depth t = some d)
    (outer : Nat) : nestingStep? (depth + outer) t = some (d + outer) := by
  rcases t with (o | _ | _) | a
  · cases h
    rfl
  · cases h
    exact congrArg some (Nat.add_right_comm _ _ _)
  · cases depth with
    | zero => cases h
    | succ depth =>
      cases h
      rw [Nat.succ_add]
      rfl
  · cases h
    rfl

/-- More open parentheses around tokens stay open. -/
theorem nestingAfter?_add {depth d : Nat} {tokens : List Token}
    (h : nestingAfter? depth tokens = some d) (outer : Nat) :
    nestingAfter? (depth + outer) tokens = some (d + outer) := by
  induction tokens generalizing depth with
  | nil =>
    cases h
    rfl
  | cons t tokens ih =>
    rw [nestingAfter?_cons] at h ⊢
    obtain ⟨next, hnext, hrest⟩ := Option.bind_eq_some_iff.mp h
    rw [nestingStep?_add hnext, Option.bind_some, ih hrest]

@[simp] theorem nestingStep?_operand (depth : Nat) (a : Operand) :
    nestingStep? depth (operand a) = some depth := rfl

@[simp] theorem nestingStep?_op (depth : Nat) (o : Operator) :
    nestingStep? depth (symbol (.op o)) = some depth := rfl

@[simp] theorem nestingStep?_leftParen (depth : Nat) :
    nestingStep? depth (symbol .leftParen) = some (depth + 1) := rfl

@[simp] theorem nestingStep?_rightParen_succ (depth : Nat) :
    nestingStep? (depth + 1) (symbol .rightParen) = some depth := rfl

theorem depthStep?_char (depth : Nat) (s : Symbol) :
    depthStep? depth s.char = nestingStep? depth (symbol s) := by
  rcases s with (_ | _ | _ | _) | _ | _ <;> rfl

theorem depthStep?_of_ofChar?_eq_none {c : Char} (h : Symbol.ofChar? c = none) (depth : Nat) :
    depthStep? depth c = some depth := by
  have hleft : c ≠ '(' := by
    rintro rfl
    cases h
  have hright : c ≠ ')' := by
    rintro rfl
    cases h
  simp [depthStep?, hleft, hright]

theorem depthStep?_of_isSign {c : Char} (h : Signs.isSign c = true) (depth : Nat) :
    depthStep? depth c = some depth := by
  rcases Signs.isSign_iff.mp h with rfl | rfl <;> rfl

/-- Merging signs leaves the parentheses alone. -/
theorem depthAfter?_collapse (depth : Nat) (s : List Char) :
    depthAfter? depth (Signs.collapse s) = depthAfter? depth s := by
  -- The sign that two signs are merged to opens and closes nothing, as they do.
  have habsorb : ∀ depth c s,
      depthAfter? depth (Signs.absorb c s) = depthAfter? depth (c :: s) := by
    intro depth c s
    cases s with
    | nil => rfl
    | cons d s =>
      rw [Signs.absorb]
      split
      · next h =>
        simp [depthStep?_of_isSign (Signs.isSign_product c d), depthStep?_of_isSign h.1,
          depthStep?_of_isSign h.2]
      · rfl
  induction s generalizing depth with
  | nil => rw [Signs.collapse_nil]
  | cons c s ih =>
    rw [Signs.collapse_cons, habsorb, depthAfter?_cons, depthAfter?_cons]
    exact congrArg _ (funext fun d => ih d)

/-- Cutting a line leaves its parentheses in their order. -/
theorem nestingAfter?_cut (depth : Nat) (line : List Char) :
    nestingAfter? depth ((Piece.cut line).map ofPiece) = depthAfter? depth line := by
  -- A character in front is a symbol, or it becomes part of a word.
  have hprepend : ∀ depth c pieces, nestingAfter? depth ((Piece.prepend c pieces).map ofPiece) =
      (depthStep? depth c).bind fun d => nestingAfter? d (pieces.map ofPiece) := by
    intro depth c pieces
    unfold Piece.prepend
    split
    · next s hs =>
      rw [Symbol.ofChar?_eq_some_iff.mp hs, depthStep?_char]
      rfl
    · next hnone =>
      rw [depthStep?_of_ofChar?_eq_none hnone]
      split <;> rfl
  induction line generalizing depth with
  | nil => rfl
  | cons c line ih =>
    rw [Piece.cut_cons, hprepend, depthAfter?_cons]
    exact congrArg _ (funext fun d => ih d)

/-- Words have no part in the nesting, trimmed or left out. -/
theorem nestingAfter?_filterMap_trimmed? (depth : Nat) (pieces : List Piece) :
    nestingAfter? depth ((pieces.filterMap Piece.trimmed?).map ofPiece) =
      nestingAfter? depth (pieces.map ofPiece) := by
  induction pieces generalizing depth with
  | nil => rfl
  | cons p pieces ih =>
    cases p with
    | symbol s =>
      have hsymbol : Piece.trimmed? (.symbol s) = some (.symbol s) := rfl
      rw [List.filterMap_cons_some hsymbol, List.map_cons, List.map_cons, nestingAfter?_cons,
        nestingAfter?_cons]
      exact congrArg _ (funext fun d => ih d)
    | word w =>
      have hword : nestingAfter? depth ((Piece.word w :: pieces).map ofPiece) =
        nestingAfter? depth (pieces.map ofPiece) := rfl
      rw [hword, ← ih depth]
      by_cases hw : Text.trim w = []
      · rw [List.filterMap_cons_none (by simp [Piece.trimmed?, hw])]
      · rw [List.filterMap_cons_some (by rw [Piece.trimmed?, if_neg hw])]
        rfl

/-- A sign that is folded takes no parenthesis with it. -/
theorem nestingAfter?_foldSigns (depth : Nat) (due : Bool) (pieces : List Piece) :
    nestingAfter? depth (foldSigns due pieces) = nestingAfter? depth (pieces.map ofPiece) := by
  fun_induction foldSigns due pieces generalizing depth with
  | case1 due => rfl
  | case2 due p => rfl
  | case3 due p q rest t ht ih =>
    obtain ⟨-, hsigned⟩ := Option.ite_none_right_eq_some.mp ht
    obtain ⟨o, w, a, rfl, rfl, rfl⟩ := exists_of_signed?_eq_some hsigned
    exact ih depth
  | case4 due p q rest hnone ih =>
    rw [nestingAfter?_cons, List.map_cons, nestingAfter?_cons]
    exact congrArg _ (funext fun d => ih d)

/-- The tokens of a line open and close the parentheses of the line. -/
theorem nestingAfter?_scan (depth : Nat) (due : Bool) (line : List Char) :
    nestingAfter? depth (scan due line) = depthAfter? depth line := by
  rw [scan, nestingAfter?_foldSigns, Piece.ofLine, nestingAfter?_filterMap_trimmed?,
    nestingAfter?_cut, depthAfter?_collapse]

end Token

end DeskCalc
