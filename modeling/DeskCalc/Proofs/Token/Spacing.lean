import DeskCalc.Proofs.Piece.Stretch
import DeskCalc.Proofs.Token.Nesting

/-!
# Blanks beside symbols

Blanks at an end of a line or beside a symbol make no difference to its tokens: trimming takes them
from the words that they end up in, and what they leave is no piece. The only blanks that matter are
those that keep two signs from being merged, or two equal `*` or `/` from being refused. So the line
is cut at the blanks: its two parts are merged and checked on their own with or without them.

## Main definitions

* `Token.Spaceable` — blanks may be put between the two parts of a line

## Main results

* `scan_append_blanks_append` — the tokens of a line do not show such blanks
* `ofLine_append_blanks_append` — nor does the refusal of a line
-/

namespace DeskCalc

variable {before blanks behind : List Char}

/-! ### Blanks and parentheses -/

theorem depthAfter?_not_symbol_append {w : List Char} (hw : ∀ c ∈ w, Symbol.ofChar? c = none)
    (depth : Nat) (s : List Char) : depthAfter? depth (w ++ s) = depthAfter? depth s := by
  induction w with
  | nil => rfl
  | cons c w ih =>
    obtain ⟨hc, hw⟩ := List.forall_mem_cons.mp hw
    rw [List.cons_append, depthAfter?_cons, Token.depthStep?_of_ofChar?_eq_none hc,
      Option.bind_some, ih hw]

theorem isBalanced_append_blanks_append (hb : ∀ c ∈ blanks, Text.isBlank c = true)
    (before behind : List Char) :
    isBalanced (before ++ (blanks ++ behind)) = isBalanced (before ++ behind) := by
  have hdepth : depthAfter? 0 (before ++ (blanks ++ behind)) =
      depthAfter? 0 (before ++ behind) := by
    rw [depthAfter?_append, depthAfter?_append]
    exact congrArg _ (funext fun d => depthAfter?_not_symbol_append
      (fun c hc => Piece.ofChar?_eq_none_of_isBlank (hb c hc)) d behind)
  rw [isBalanced, isBalanced, hdepth]

/-! ### Blanks and runs of signs -/

namespace Signs

theorem undoubled_not_symbol_append {w : List Char} (hw : ∀ c ∈ w, Symbol.ofChar? c = none)
    (s : List Char) : Undoubled (w ++ s) ↔ Undoubled s := by
  induction w with
  | nil => rfl
  | cons c w ih =>
    obtain ⟨hnone, hw⟩ := List.forall_mem_cons.mp hw
    have hcons := @undoubled_append_cons c (by rintro rfl; cases hnone) (by rintro rfl; cases hnone)
      [] (w ++ s)
    have hnil : Undoubled [] := by simp [Undoubled]
    rw [List.cons_append, ← List.nil_append (c :: _), hcons, ih hw]
    exact and_iff_right hnil

theorem isSign_eq_false_of_ofChar? {c : Char} (h : Symbol.ofChar? c = none) : isSign c = false := by
  rw [← Bool.not_eq_true, isSign_iff]
  rintro (rfl | rfl) <;> cases h

/-- Blanks stay where they are unless they keep two signs apart. -/
theorem collapse_append_blanks_append (hb : ∀ c ∈ blanks, Text.isBlank c = true)
    (hsigns : before.getLast?.any isSign = false ∨ behind.head?.any isSign = false) :
    collapse (before ++ (blanks ++ behind)) = collapse before ++ (blanks ++ collapse behind) := by
  have hblanks : ∀ c ∈ blanks, isSign c = false := fun c hc =>
    isSign_eq_false_of_ofChar? (Piece.ofChar?_eq_none_of_isBlank (hb c hc))
  -- Only without blanks does the front of the second part matter.
  have hends : before.getLast?.any isSign = false ∨
      (blanks ++ behind).head?.any isSign = false := by
    cases blanks with
    | nil => exact hsigns
    | cons b blanks => exact Or.inr (hblanks b List.mem_cons_self)
  rw [collapse_append_of_ends hends, collapse_append_of_not_isSign hblanks]

end Signs

/-! ### Blanks and tokens -/

namespace Token

open Piece (isCut)
open Signs (isSign Undoubled)

/-- Blanks may be put between the two parts of a line: at an end of the line or beside a symbol, but
not between two signs, two `*` or two `/`. -/
structure Spaceable (before behind : List Char) : Prop where
  beside_symbol : before.getLast?.all isCut = true ∨ behind.head?.all isCut = true
  signs_apart : before.getLast?.any isSign = false ∨ behind.head?.any isSign = false
  stars_apart : ¬ (before.getLast? = some '*' ∧ behind.head? = some '*')
  slashes_apart : ¬ (before.getLast? = some '/' ∧ behind.head? = some '/')

theorem spaceable_nil_left (line : List Char) : Spaceable [] line :=
  ⟨Or.inl rfl, Or.inl rfl, by simp, by simp⟩

theorem spaceable_nil_right (line : List Char) : Spaceable line [] :=
  ⟨Or.inr rfl, Or.inr rfl, by simp, by simp⟩

namespace Spaceable

/-- A line is refused for a doubled `*` or `/` with or without the blanks. -/
theorem undoubled_iff (h : Spaceable before behind) (hb : ∀ c ∈ blanks, Text.isBlank c = true) :
    Undoubled (before ++ (blanks ++ behind)) ↔ Undoubled (before ++ behind) := by
  rw [Signs.undoubled_append h.stars_apart h.slashes_apart]
  cases blanks with
  | nil => exact Signs.undoubled_append h.stars_apart h.slashes_apart
  | cons b blanks =>
    -- The first blank stands between the two parts, so neither `*` nor `/` can meet itself there.
    have hnone := Piece.ofChar?_eq_none_of_isBlank (hb b List.mem_cons_self)
    rw [Signs.undoubled_append, Signs.undoubled_not_symbol_append
      fun c hc => Piece.ofChar?_eq_none_of_isBlank (hb c hc)]
    · rintro ⟨-, hhead⟩
      cases hhead
      cases hnone
    · rintro ⟨-, hhead⟩
      cases hhead
      cases hnone

/-- Merging the signs of the two parts leaves a symbol beside the blanks. -/
theorem collapse_beside_symbol (h : Spaceable before behind) :
    (Signs.collapse before).getLast?.all isCut = true ∨
      (Signs.collapse behind).head?.all isCut = true := by
  have hlast := congrArg (Option.all id) (Signs.map_getLast?_collapse (f := isCut) rfl before)
  have hhead := congrArg (Option.all id) (Signs.map_head?_collapse (f := isCut) rfl behind)
  rw [Option.all_map, Option.all_map] at hlast hhead
  exact h.beside_symbol.imp hlast.trans hhead.trans

end Spaceable

/-- The tokens of a line are the same with the blanks. -/
theorem scan_append_blanks_append (h : Spaceable before behind)
    (hb : ∀ c ∈ blanks, Text.isBlank c = true) (due : Bool) :
    scan due (before ++ (blanks ++ behind)) = scan due (before ++ behind) := by
  rw [scan, scan, Signs.collapse_append_blanks_append hb h.signs_apart,
    Signs.collapse_append_of_ends h.signs_apart,
    Piece.ofLine_append_blanks_append hb h.collapse_beside_symbol]

/-- A line with the blanks has the same tokens, or is refused as the line without them is. -/
theorem ofLine_append_blanks_append (h : Spaceable before behind)
    (hb : ∀ c ∈ blanks, Text.isBlank c = true) :
    ofLine (before ++ (blanks ++ behind)) = ofLine (before ++ behind) := by
  by_cases hundoubled : Undoubled (before ++ behind)
  · rw [ofLine_eq_ok_iff.mpr ⟨hundoubled, rfl⟩,
      ofLine_eq_ok_iff.mpr ⟨(h.undoubled_iff hb).mpr hundoubled, rfl⟩,
      scan_append_blanks_append h hb]
  · -- Both lines are refused, and there is one refusal only.
    have hspaced := mt (h.undoubled_iff hb).mp hundoubled
    rw [Undoubled, ← not_or, not_not] at hundoubled hspaced
    rw [ofLine_eq_error_iff.mpr ⟨hundoubled, rfl⟩, ofLine_eq_error_iff.mpr ⟨hspaced, rfl⟩]

end Token

end DeskCalc
