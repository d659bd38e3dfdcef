import DeskCalc.Proofs.Signs.Collapse
import DeskCalc.Proofs.Signs.Doubled
import Mathlib.Data.List.Chain
import Mathlib.Logic.Function.Iterate

/-!
# What merging signs comes to

A pass that changes a text shortens it, so no text takes more passes than it has characters, and
what the passes end in is the collapsed text. Collapsing moves no character that is no sign and lets
no two signs stand together. It neither makes nor breaks a doubled `*` or `/`, so a merged text is
merged again without a change.

## Main definitions

* `Signs.Separate` — no two signs stand next to each other

## Main results

* `iterate_pass_eq_collapse` — the rewriting ends in the collapsed text
* `separate_collapse`, `undoubled_collapse_iff` — what stands together in a collapsed text
* `simplify_eq_collapse` — which texts are refused, and what the others become
-/

namespace DeskCalc.Signs

variable {s : List Char}

/-! ### The passes of the rewriting -/

/-- Some number of passes, no larger than the number of characters, settles a text. -/
theorem exists_iterate_pass (s : List Char) : ∃ n ≤ s.length, pass^[n] s = settle s := by
  fun_induction settle s with
  | case1 s h => exact ⟨0, Nat.zero_le _, rfl⟩
  | case2 s h ih =>
    obtain ⟨n, hn, hsettle⟩ := ih
    -- The first pass has made the text shorter, which pays for one more.
    have hlt := length_pass_lt h
    exact ⟨n + 1, by omega, hsettle⟩

/-- After as many passes as it has characters, a text is collapsed and stays as it is. -/
theorem iterate_pass_eq_collapse {n : Nat} (h : s.length ≤ n) : pass^[n] s = collapse s := by
  obtain ⟨k, hk, hsettle⟩ := exists_iterate_pass s
  calc pass^[n] s
      = pass^[n - k] (pass^[k] s) := by
        rw [← Function.iterate_add_apply, Nat.sub_add_cancel (Nat.le_trans hk h)]
    _ = settle s := by rw [hsettle, Function.iterate_fixed (pass_settle s)]
    _ = collapse s := settle_eq_collapse s

@[simp] theorem collapse_collapse (s : List Char) : collapse (collapse s) = collapse s := by
  rw [← settle_eq_collapse s, collapse_settle, settle_eq_collapse]

/-! ### What stands together in a collapsed text -/

/-- No two signs stand next to each other in the text. -/
def Separate (s : List Char) : Prop := s.IsChain fun c d => ¬ (isSign c = true ∧ isSign d = true)

/-- Absorbing a character puts no two signs together. -/
theorem Separate.absorb (h : Separate s) (c : Char) : Separate (absorb c s) := by
  cases s with
  | nil => exact List.isChain_singleton c
  | cons d s =>
    rw [Signs.absorb]
    split
    · next hsigns =>
      -- The product stands where the sign in front stood, and is a sign as that one was.
      obtain ⟨hbehind, hs⟩ := List.isChain_cons.mp h
      exact List.isChain_cons.mpr ⟨fun e he hsign => hbehind e he ⟨hsigns.2, hsign.2⟩, hs⟩
    · next hsigns => exact List.isChain_cons_cons.mpr ⟨hsigns, h⟩

/-- No two signs stand next to each other in a collapsed text. -/
theorem separate_collapse (s : List Char) : Separate (collapse s) := by
  induction s with
  | nil =>
    rw [collapse_nil]
    exact List.isChain_nil
  | cons c s ih =>
    rw [collapse_cons]
    exact ih.absorb c

theorem filter_not_isSign_collapse (s : List Char) :
    (collapse s).filter (!isSign ·) = s.filter (!isSign ·) := by
  induction s with
  | nil => rw [collapse_nil]
  | cons c s ih =>
    rw [collapse_cons, List.filter_cons, ← ih]
    rcases absorb_eq_cons_or c (collapse s) with h | ⟨d, t, hs, hc, hd, h⟩
    · rw [h, List.filter_cons]
    · rw [h, hs]
      simp [hc, hd, isSign_product]

/-- A character that is no sign is doubled in a collapsed text exactly if it was before. -/
theorem hasDoubled_collapse {c : Char} (hc : isSign c = false) (s : List Char) :
    hasDoubled c (collapse s) = hasDoubled c s := by
  have hne : ∀ {d : Char}, isSign d = true → d ≠ c := by
    rintro d hd rfl
    rw [hc] at hd
    cases hd
  have hsigns : ('+' == c) = ('-' == c) := by
    rw [beq_eq_false_iff_ne.mpr (hne rfl), beq_eq_false_iff_ne.mpr (hne rfl)]
  induction s with
  | nil => rw [collapse_nil]
  | cons a s ih =>
    rw [collapse_cons]
    rcases absorb_eq_cons_or a (collapse s) with h | ⟨d, t, hs, ha, hd, h⟩
    · -- The character comes first in the collapsed text exactly if it came first before.
      have hhead : (collapse s).head?.any (· == c) = s.head?.any (· == c) := by
        have hmap := congrArg (Option.any id) (map_head?_collapse (f := (· == c)) hsigns s)
        simpa [Option.any_map] using hmap
      rw [h, hasDoubled_cons, hasDoubled_cons, ih, hhead]
    · rw [h, hasDoubled_cons_of_ne (hne (isSign_product a d)), hasDoubled_cons_of_ne (hne ha),
        ← ih, hs, hasDoubled_cons_of_ne (hne hd)]

/-- Collapsing neither makes nor breaks a doubled `*` or `/`. -/
theorem undoubled_collapse_iff : Undoubled (collapse s) ↔ Undoubled s := by
  rw [undoubled_iff, undoubled_iff, hasDoubled_collapse rfl, hasDoubled_collapse rfl]

/-! ### Merged texts -/

theorem simplify_eq_error_iff {e : CalcError} :
    simplify s = .error e ↔
      (['*', '*'] <:+: s ∨ ['/', '/'] <:+: s) ∧ e = .invalidExpression := by
  rw [← hasDoubled_iff, ← hasDoubled_iff, ← Bool.or_eq_true, simplify]
  split
  · next h => simp [h, eq_comm (a := e)]
  · next h => simp [h]

theorem simplify_of_undoubled (h : Undoubled s) : simplify s = .ok (collapse s) := by
  obtain ⟨hstar, hslash⟩ := undoubled_iff.mp h
  rw [simplify, hstar, hslash, settle_eq_collapse]
  rfl

/-- A text with a doubled `*` or `/` is refused. Any other text settles, within as many passes as it
has characters, in the text whose runs of signs are collapsed; all other characters stay in their
order. No two signs stand together in it, nothing is doubled in it, and merging it again changes
nothing. -/
theorem simplify_eq_collapse (s : List Char) :
    (∀ e, simplify s = .error e ↔
        (['*', '*'] <:+: s ∨ ['/', '/'] <:+: s) ∧ e = .invalidExpression) ∧
      (∀ n, s.length ≤ n → pass^[n] s = collapse s) ∧
      (collapse s).filter (!isSign ·) = s.filter (!isSign ·) ∧
      Separate (collapse s) ∧
      (Undoubled s → simplify s = .ok (collapse s) ∧ Undoubled (collapse s) ∧
        simplify (collapse s) = .ok (collapse s)) := by
  refine ⟨fun e => simplify_eq_error_iff, fun n => iterate_pass_eq_collapse,
    filter_not_isSign_collapse s, separate_collapse s, fun h => ?_⟩
  have hcollapse := undoubled_collapse_iff.mpr h
  refine ⟨simplify_of_undoubled h, hcollapse, ?_⟩
  rw [simplify_of_undoubled hcollapse, collapse_collapse]

/-- A blank keeps two runs apart, so each of them leaves a sign of its own. -/
theorem simplify_eq_collapse_apart :
    Undoubled ['1', '-', '-', '-', ' ', '+', '-', '+', '2'] ∧
      simplify ['1', '-', '-', '-', ' ', '+', '-', '+', '2'] = .ok ['1', '-', ' ', '-', '2'] ∧
      Separate ['1', '-', ' ', '-', '2'] ∧
      simplify ['1', '-', ' ', '-', '2'] = .ok ['1', '-', ' ', '-', '2'] := by
  have hundoubled : Undoubled ['1', '-', '-', '-', ' ', '+', '-', '+', '2'] := by decide
  have hcollapse : collapse ['1', '-', '-', '-', ' ', '+', '-', '+', '2'] =
      ['1', '-', ' ', '-', '2'] := by
    simp only [collapse_cons, collapse_nil]
    decide
  obtain ⟨-, -, -, hseparate, hmerged⟩ :=
    simplify_eq_collapse ['1', '-', '-', '-', ' ', '+', '-', '+', '2']
  obtain ⟨hsimplify, -, hagain⟩ := hmerged hundoubled
  rw [hcollapse] at hseparate hsimplify hagain
  exact ⟨hundoubled, hsimplify, hseparate, hagain⟩

end DeskCalc.Signs
