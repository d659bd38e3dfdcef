import DeskCalc.Postfix.Conversion
import DeskCalc.Postfix.Evaluation

/-!
# The pieces of a postfix text

The spaces that separate the entries of a postfix text also cut it into pieces, so each entry brings
its own pieces: an operator and the value of a name one piece, and a literal one for every stretch
without spaces.

## Main definitions

* `Postfix.CutAtSpaces` — what the spaces of a text cut it into, stated without cutting it
* `Postfix.Entry.pieces` — the pieces that an entry comes to

## Main results

* `cutAtSpaces_iff` — the pieces of a text are what its spaces cut it into
* `piecesOf_render` — the pieces of a postfix text are those of its entries
-/

namespace DeskCalc

namespace Numeral

@[simp] theorem literal?_operator (o : Operator) : literal? [o.char] = none := by
  cases o <;> decide

theorem eq_minus_or_isDigit_of_mem_render {n : Int} {c : Char} (h : c ∈ render n) :
    c = '-' ∨ c.isDigit = true := by
  have hdigits := (isDigits_iff.mp (isDigits_toDigits n.natAbs)).2 c
  rw [render] at h
  split at h
  · exact (List.mem_cons.mp h).imp_right hdigits
  · exact Or.inr (hdigits h)

theorem not_mem_render {c : Char} (hminus : c ≠ '-') (hdigit : c.isDigit = false) (n : Int) :
    c ∉ render n := by
  intro h
  rcases eq_minus_or_isDigit_of_mem_render h with h | h
  · exact hminus h
  · rw [h] at hdigit
    cases hdigit

theorem space_not_mem_render (n : Int) : ' ' ∉ render n :=
  not_mem_render (by decide) (by decide) n

theorem render_ne_nil (n : Int) : render n ≠ [] := by
  rw [render]
  split
  · simp
  · exact Nat.toDigits_ne_nil

@[simp] theorem literal?_render (n : Int) : literal? (render n) = some n :=
  literal?_of_integer? (integer?_render n)

end Numeral

namespace Postfix

/-- The pieces that an entry comes to when its text is cut at the spaces. -/
def Entry.pieces (e : Entry) : List (List Char) := piecesOf e.text

@[simp] theorem piecesOf_nil : piecesOf [] = [] := by
  simp [piecesOf]

theorem piecesOf_append_space (s t : List Char) :
    piecesOf (s ++ ' ' :: t) = piecesOf s ++ piecesOf t := by
  simp [piecesOf, List.splitOn_append_cons_self]

theorem piecesOf_eq_singleton {s : List Char} (hs : s ≠ []) (hspace : ' ' ∉ s) :
    piecesOf s = [s] := by
  rw [piecesOf, List.splitOn_eq_singleton hspace]
  simp [hs]

/-- The spaces of the text cut it into the pieces: texts without spaces, none of them empty, with at
least one space between any two of them and with any number of spaces at the ends. -/
inductive CutAtSpaces : List Char → List (List Char) → Prop
  | nil : CutAtSpaces [] []
  | space {text : List Char} {pieces : List (List Char)} :
      CutAtSpaces text pieces → CutAtSpaces (' ' :: text) pieces
  | last {piece : List Char} : piece ≠ [] → ' ' ∉ piece → CutAtSpaces piece [piece]
  | piece {piece text : List Char} {pieces : List (List Char)} : piece ≠ [] → ' ' ∉ piece →
      CutAtSpaces text pieces → CutAtSpaces (piece ++ ' ' :: text) (piece :: pieces)

theorem CutAtSpaces.eq_piecesOf {text : List Char} {pieces : List (List Char)}
    (h : CutAtSpaces text pieces) : pieces = piecesOf text := by
  induction h with
  | nil => exact piecesOf_nil.symm
  | space _ ih => rw [ih, ← List.nil_append (' ' :: _), piecesOf_append_space, piecesOf_nil,
      List.nil_append]
  | last hne hspace => exact (piecesOf_eq_singleton hne hspace).symm
  | piece hne hspace _ ih =>
    rw [piecesOf_append_space, piecesOf_eq_singleton hne hspace, ← ih, List.singleton_append]

theorem cutAtSpaces_piecesOf (text : List Char) : CutAtSpaces text (piecesOf text) := by
  -- What stands behind the first space is shorter than the text.
  induction hn : text.length using Nat.strongRecOn generalizing text with
  | ind n ih =>
    by_cases hspace : ' ' ∈ text
    · obtain ⟨piece, rest, rfl, hpiece⟩ := List.eq_append_cons_of_mem hspace
      have hlength : rest.length < n := by
        simp only [List.length_append, List.length_cons] at hn
        omega
      have hrest := ih rest.length hlength rest rfl
      rw [piecesOf_append_space]
      by_cases hne : piece = []
      · subst hne
        rw [piecesOf_nil]
        exact .space hrest
      · rw [piecesOf_eq_singleton hne hpiece]
        exact .piece hne hpiece hrest
    · by_cases hne : text = []
      · subst hne
        rw [piecesOf_nil]
        exact .nil
      · rw [piecesOf_eq_singleton hne hspace]
        exact .last hne hspace

/-- The pieces of a text are what its spaces cut it into. -/
theorem cutAtSpaces_iff {text : List Char} {pieces : List (List Char)} :
    CutAtSpaces text pieces ↔ pieces = piecesOf text := by
  refine ⟨CutAtSpaces.eq_piecesOf, ?_⟩
  rintro rfl
  exact cutAtSpaces_piecesOf text

theorem render_cons_cons (e f : Entry) (entries : List Entry) :
    render (e :: f :: entries) = e.text ++ ' ' :: render (f :: entries) := by
  simp [render]

/-- A character of a postfix text is a space or belongs to an entry. -/
theorem eq_space_or_of_mem_render {c : Char} {entries : List Entry} (h : c ∈ render entries) :
    c = ' ' ∨ ∃ e ∈ entries, c ∈ e.text := by
  induction entries with
  | nil => cases h
  | cons e entries ih =>
    cases entries with
    | nil =>
      have htext : render [e] = e.text := List.append_nil _
      exact Or.inr ⟨e, List.mem_cons_self, htext ▸ h⟩
    | cons f entries =>
      rw [render_cons_cons, List.mem_append, List.mem_cons] at h
      rcases h with h | rfl | h
      · exact Or.inr ⟨e, List.mem_cons_self, h⟩
      · exact Or.inl rfl
      · exact (ih h).imp_right fun ⟨g, hg, hc⟩ => ⟨g, List.mem_cons_of_mem e hg, hc⟩

/-- The pieces of a postfix text are those of its entries. -/
theorem piecesOf_render (entries : List Entry) :
    piecesOf (render entries) = entries.flatMap Entry.pieces := by
  induction entries with
  | nil => simp [render]
  | cons e entries ih =>
    cases entries with
    | nil => simp [render, Entry.pieces]
    | cons f entries =>
      calc piecesOf (render (e :: f :: entries))
          = piecesOf e.text ++ piecesOf (render (f :: entries)) := by
            rw [render_cons_cons, piecesOf_append_space]
        _ = e.pieces ++ (f :: entries).flatMap Entry.pieces := by rw [ih, Entry.pieces]
        _ = (e :: f :: entries).flatMap Entry.pieces := List.flatMap_cons.symm

@[simp] theorem Entry.pieces_op (o : Operator) : (Entry.op o).pieces = [[o.char]] := by
  have hspace : ' ' ∉ [o.char] := by cases o <;> decide
  exact piecesOf_eq_singleton (by simp [Entry.text]) hspace

@[simp] theorem Entry.pieces_value (n : Int) : (Entry.value n).pieces = [Numeral.render n] :=
  piecesOf_eq_singleton (Numeral.render_ne_nil n) (Numeral.space_not_mem_render n)

theorem Entry.pieces_literal {s : List Char} (hs : s ≠ []) (hspace : ' ' ∉ s) :
    (Entry.literal s).pieces = [s] :=
  piecesOf_eq_singleton hs hspace

end Postfix

end DeskCalc
