import DeskCalc.Signs.Parity

/-!
# Settling is collapsing

The rewriting of neighbouring signs ends in the text in which every maximal run of signs has become
the one sign it stands for. The collapsed text is built from the right, one character at a time: a
sign in front of a sign is multiplied into it. Each rule replaces two signs by their product, so no
rule changes the collapsed text, and a text without neighbouring signs is its own collapse.

## Main definitions

* `Signs.product` — the sign that two neighbouring signs stand for
* `Signs.absorb` — a collapsed text with one more character in front

## Main results

* `collapse_cons` — collapsing works from the right
* `settle_eq_collapse` — the rewriting and the collapse give the same text
* `map_head?_collapse`, `map_getLast?_collapse` — the ends of a collapsed text
* `collapse_append` — a character that is no sign keeps what is before it from what is behind it
-/

namespace DeskCalc.Signs

/-- Equal signs make a plus and different signs make a minus. -/
def product (a b : Char) : Char := if a = b then '+' else '-'

/-- A collapsed text with one more character in front: a sign is multiplied into a sign that the
text begins with, and any other character stays in front. -/
def absorb (c : Char) : List Char → List Char
  | [] => [c]
  | d :: s => if isSign c = true ∧ isSign d = true then product c d :: s else c :: d :: s

theorem isSign_iff {c : Char} : isSign c = true ↔ c = '+' ∨ c = '-' := by
  simp [isSign]

theorem isSign_product (c d : Char) : isSign (product c d) = true := by
  rw [product]
  split <;> rfl

@[simp] theorem absorb_of_not_isSign {c : Char} (h : isSign c = false) (s : List Char) :
    absorb c s = c :: s := by
  cases s <;> simp [absorb, h]

theorem absorb_cons_of_isSign {c d : Char} (hc : isSign c = true) (hd : isSign d = true)
    (s : List Char) : absorb c (d :: s) = product c d :: s := by
  simp [absorb, hc, hd]

theorem absorb_of_head?_not_isSign {c : Char} {s : List Char} (h : s.head?.any isSign = false) :
    absorb c s = c :: s := by
  cases s with
  | nil => rfl
  | cons d s =>
    have hd : isSign d = false := by simpa using h
    simp [absorb, hd]

/-- A character either stays in front of a text, or it is a sign that meets another one. -/
theorem absorb_eq_cons_or (c : Char) (s : List Char) :
    absorb c s = c :: s ∨ ∃ d t, s = d :: t ∧ isSign c = true ∧ isSign d = true ∧
      absorb c s = product c d :: t := by
  cases s with
  | nil => exact Or.inl rfl
  | cons d t =>
    by_cases h : isSign c = true ∧ isSign d = true
    · exact Or.inr ⟨d, t, rfl, h.1, h.2, if_pos h⟩
    · exact Or.inl (if_neg h)

/-- Only a text that begins with a sign is changed by a sign in front of it. -/
theorem absorb_append {c : Char} {s t : List Char}
    (h : s ≠ [] ∨ t.head?.any isSign = false) : absorb c (s ++ t) = absorb c s ++ t := by
  cases s with
  | nil =>
    have ht : t.head?.any isSign = false := h.resolve_left (by simp)
    rw [List.nil_append, absorb_of_head?_not_isSign ht]
    rfl
  | cons d s =>
    rw [List.cons_append, absorb, absorb]
    split <;> rfl

/-! ### Collapsing from the right -/

theorem isSign_runSign (run : List Char) : isSign (runSign run) = true := by
  rw [runSign]
  split <;> rfl

theorem runSign_singleton {c : Char} (h : isSign c = true) : runSign [c] = c := by
  rcases isSign_iff.mp h with rfl | rfl <;> rfl

/-- One more sign in front multiplies the sign that a run stands for. -/
theorem runSign_cons {c : Char} (hc : isSign c = true) (run : List Char) :
    runSign (c :: run) = product c (runSign run) := by
  rcases isSign_iff.mp hc with rfl | rfl
  · have hcount : ('+' :: run).count '-' = run.count '-' := List.count_cons_of_ne (by decide)
    rw [runSign, runSign, product, hcount]
    split <;> rfl
  · have hcount : ('-' :: run).count '-' = run.count '-' + 1 := List.count_cons_self
    rw [runSign, runSign, product, hcount]
    -- The parity of the minus signs changes with the minus sign in front.
    by_cases hodd : run.count '-' % 2 = 1
    · have heven : ¬ (run.count '-' + 1) % 2 = 1 := by omega
      simp [hodd, heven]
    · have hodd' : (run.count '-' + 1) % 2 = 1 := by omega
      simp [hodd, hodd']

/-- The collapse of a text comes from the collapse of the text without its first character. -/
theorem collapse_cons (c : Char) (s : List Char) : collapse (c :: s) = absorb c (collapse s) := by
  by_cases hc : isSign c = true
  · cases s with
    | nil => simp [collapse_cons_of_isSign hc, runSign_singleton hc, absorb]
    | cons d s =>
      by_cases hd : isSign d = true
      · -- The run that begins with `d` is the run that begins with `c` without its first sign.
        rw [collapse_cons_of_isSign hc, collapse_cons_of_isSign hd,
          absorb_cons_of_isSign hc (isSign_runSign _), ← runSign_cons hc]
        simp [hd]
      · -- The run is the single sign `c`.
        have hd' : isSign d = false := by simpa using hd
        rw [collapse_cons_of_isSign hc, collapse_cons_of_not_isSign hd',
          absorb_of_head?_not_isSign (by simp [hd'])]
        simp [hd', runSign_singleton hc, collapse_cons_of_not_isSign hd']
  · have hc' : isSign c = false := by simpa using hc
    rw [collapse_cons_of_not_isSign hc', absorb_of_not_isSign hc']

/-- Two signs in front are absorbed as their product is. -/
theorem absorb_absorb {c d : Char} (hc : isSign c = true) (hd : isSign d = true) (s : List Char) :
    absorb c (absorb d s) = absorb (product c d) s := by
  cases s with
  | nil =>
    rcases isSign_iff.mp hc with rfl | rfl <;> rcases isSign_iff.mp hd with rfl | rfl <;> rfl
  | cons e s =>
    by_cases he : isSign e = true
    · rcases isSign_iff.mp hc with rfl | rfl <;> rcases isSign_iff.mp hd with rfl | rfl <;>
        rcases isSign_iff.mp he with rfl | rfl <;> rfl
    · have he' : isSign e = false := by simpa using he
      have hbehind : ∀ x, absorb x (e :: s) = x :: e :: s := fun x =>
        absorb_of_head?_not_isSign (by simp [he'])
      rw [hbehind, hbehind, absorb_cons_of_isSign hc hd]

/-! ### No rule changes the collapse -/

/-- A rule replaces two signs by their product. -/
theorem product_of_mem_rules {r : Rule} (h : r ∈ rules) :
    isSign r.first = true ∧ isSign r.second = true ∧ r.result = product r.first r.second := by
  simp only [rules, List.mem_cons, List.not_mem_nil, or_false] at h
  rcases h with rfl | rfl | rfl | rfl <;> decide

theorem collapse_rewrite {r : Rule} (hr : r ∈ rules) (s : List Char) :
    collapse (r.rewrite s) = collapse s := by
  obtain ⟨hfirst, hsecond, hresult⟩ := product_of_mem_rules hr
  -- Where the rule applies, the two signs are absorbed as their product, its result, is.
  fun_induction Rule.rewrite r s with
  | case1 a b s h ih =>
    obtain ⟨rfl, rfl⟩ := h
    rw [collapse_cons, ih, collapse_cons, collapse_cons, absorb_absorb hfirst hsecond, hresult]
  | case2 a b s h ih => rw [collapse_cons, ih, ← collapse_cons]
  | case3 s => rfl

theorem collapse_foldl_rewrite {rs : List Rule} (hrs : ∀ r ∈ rs, r ∈ rules) (s : List Char) :
    collapse (rs.foldl (fun s r => r.rewrite s) s) = collapse s := by
  induction rs generalizing s with
  | nil => rfl
  | cons r rs ih =>
    rw [List.foldl_cons, ih (fun x hx => hrs x (List.mem_cons_of_mem r hx)),
      collapse_rewrite (hrs r List.mem_cons_self)]

/-- The passes of the rewriting all have the same collapse. -/
theorem collapse_settle (s : List Char) : collapse (settle s) = collapse s := by
  fun_induction settle s with
  | case1 s h => rfl
  | case2 s h ih => rw [ih, pass, collapse_foldl_rewrite fun r hr => hr]

/-! ### A settled text is its own collapse -/

/-- What all rules together leave alone, each of them leaves alone. -/
theorem rewrite_eq_self_of_foldl {rs : List Rule} {s : List Char}
    (h : rs.foldl (fun s r => r.rewrite s) s = s) {r : Rule} (hr : r ∈ rs) : r.rewrite s = s := by
  induction rs with
  | nil => cases hr
  | cons q rs ih =>
    rw [List.foldl_cons] at h
    by_cases hq : q.rewrite s = s
    · rw [hq] at h
      rcases List.mem_cons.mp hr with rfl | hr
      · exact hq
      · exact ih h hr
    · -- The first rule shortens the text and the others cannot make it longer again.
      have hlt := Rule.length_rewrite_lt hq
      have hle := length_foldl_rewrite_le rs (q.rewrite s)
      rw [h] at hle
      omega

theorem exists_rule {a b : Char} (ha : isSign a = true) (hb : isSign b = true) :
    ∃ r ∈ rules, r.first = a ∧ r.second = b := by
  rcases isSign_iff.mp ha with rfl | rfl <;> rcases isSign_iff.mp hb with rfl | rfl <;> decide

/-- A text in which no rule finds anything to rewrite is its own collapse. -/
theorem collapse_eq_self {s : List Char} (h : ∀ r ∈ rules, r.rewrite s = s) : collapse s = s := by
  induction s with
  | nil => exact collapse_nil
  | cons a s ih =>
    cases s with
    | nil => rw [collapse_cons, collapse_nil, absorb]
    | cons b s =>
      -- If both were signs, the rule for them would shorten the text.
      have hnot : ¬ (isSign a = true ∧ isSign b = true) := by
        rintro ⟨ha, hb⟩
        obtain ⟨r, hr, rfl, rfl⟩ := exists_rule ha hb
        have hlen := congrArg List.length (h r hr)
        have hle := r.length_rewrite_le s
        simp only [Rule.rewrite, and_self, if_true, List.length_cons] at hlen
        omega
      -- So no rule applies in front, and each leaves the rest of the text alone as well.
      have htail : ∀ r ∈ rules, r.rewrite (b :: s) = b :: s := by
        intro r hr
        obtain ⟨hfirst, hsecond, -⟩ := product_of_mem_rules hr
        have hab : ¬ (a = r.first ∧ b = r.second) := by
          rintro ⟨rfl, rfl⟩
          exact hnot ⟨hfirst, hsecond⟩
        have hr' := h r hr
        rw [Rule.rewrite, if_neg hab] at hr'
        exact (List.cons.inj hr').2
      rw [collapse_cons, ih htail, absorb, if_neg hnot]

/-- The rewriting of neighbouring signs collapses every run to the sign it stands for. -/
theorem settle_eq_collapse (s : List Char) : settle s = collapse s := by
  rw [← collapse_settle s]
  refine (collapse_eq_self fun r hr => ?_).symm
  exact rewrite_eq_self_of_foldl (pass_settle s) hr

/-! ### Collapsing a text in parts -/

section Ends

variable {α : Type} {f : Char → α}

/-- What does not tell the two signs apart is the same for any signs. -/
theorem apply_eq_of_isSign (hf : f '+' = f '-') {c d : Char} (hc : isSign c = true)
    (hd : isSign d = true) : f c = f d := by
  rcases isSign_iff.mp hc with rfl | rfl <;> rcases isSign_iff.mp hd with rfl | rfl <;> simp [hf]

/-- Collapsing replaces the first character by another one only if both are signs. -/
theorem map_head?_collapse (hf : f '+' = f '-') (s : List Char) :
    (collapse s).head?.map f = s.head?.map f := by
  cases s with
  | nil => rw [collapse_nil]
  | cons c s =>
    rw [collapse_cons]
    rcases absorb_eq_cons_or c (collapse s) with h | ⟨d, t, -, hc, -, h⟩
    · rw [h]
      rfl
    · rw [h, List.head?_cons, List.head?_cons, Option.map_some, Option.map_some,
        apply_eq_of_isSign hf (isSign_product c d) hc]

theorem map_getLast?_cons (f : Char → α) (c : Char) (s : List Char) :
    (c :: s).getLast?.map f = some ((s.getLast?.map f).getD (f c)) := by
  rw [List.getLast?_cons, Option.map_some, Option.getD_map]

/-- Collapsing replaces the last character by another one only if both are signs. -/
theorem map_getLast?_collapse (hf : f '+' = f '-') (s : List Char) :
    (collapse s).getLast?.map f = s.getLast?.map f := by
  induction s with
  | nil => rw [collapse_nil]
  | cons c s ih =>
    rw [collapse_cons, map_getLast?_cons, ← ih]
    rcases absorb_eq_cons_or c (collapse s) with h | ⟨d, t, hs, -, hd, h⟩
    · rw [h, map_getLast?_cons]
    · -- The product ends the text only where its second factor does.
      rw [h, hs, map_getLast?_cons, map_getLast?_cons,
        apply_eq_of_isSign hf (isSign_product c d) hd, Option.getD_some]

/-- A sign comes out in front only where one was in front. -/
theorem head?_collapse_any_isSign (s : List Char) :
    (collapse s).head?.any isSign = s.head?.any isSign := by
  have h := congrArg (Option.any id) (map_head?_collapse (f := isSign) rfl s)
  simpa [Option.any_map] using h

end Ends

/-- What begins with no sign is collapsed on its own. -/
theorem collapse_append {t : List Char} (ht : t.head?.any isSign = false) (s : List Char) :
    collapse (s ++ t) = collapse s ++ collapse t := by
  induction s with
  | nil => rw [collapse_nil, List.nil_append, List.nil_append]
  | cons c s ih =>
    have hhead : (collapse t).head?.any isSign = false := by rw [head?_collapse_any_isSign, ht]
    rw [List.cons_append, collapse_cons, ih, absorb_append (Or.inr hhead), collapse_cons]

/-- A character that is no sign keeps what is before it from what is behind it. -/
theorem collapse_append_cons {c : Char} (hc : isSign c = false) (s t : List Char) :
    collapse (s ++ c :: t) = collapse s ++ c :: collapse t := by
  rw [collapse_append (by simp [hc]), collapse_cons_of_not_isSign hc]

/-- Two texts are collapsed on their own unless signs meet between them. -/
theorem collapse_append_of_ends {s t : List Char}
    (h : s.getLast?.any isSign = false ∨ t.head?.any isSign = false) :
    collapse (s ++ t) = collapse s ++ collapse t := by
  rcases h with hs | ht
  · rcases s.eq_nil_or_concat with rfl | ⟨s, c, rfl⟩
    · rw [collapse_nil, List.nil_append, List.nil_append]
    · have hc : isSign c = false := by simpa using hs
      rw [List.concat_eq_append, List.append_assoc, List.singleton_append,
        collapse_append_cons hc, collapse_append_cons hc, collapse_nil, List.append_assoc,
        List.singleton_append]
  · exact collapse_append ht s

theorem collapse_append_of_not_isSign {s : List Char} (h : ∀ c ∈ s, isSign c = false)
    (t : List Char) : collapse (s ++ t) = s ++ collapse t := by
  induction s with
  | nil => rfl
  | cons c s ih =>
    rw [List.cons_append, collapse_cons_of_not_isSign (h c List.mem_cons_self),
      ih fun d hd => h d (List.mem_cons_of_mem c hd), List.cons_append]

theorem collapse_eq_self_of_not_isSign {s : List Char} (h : ∀ c ∈ s, isSign c = false) :
    collapse s = s := by
  have happend := collapse_append_of_not_isSign h []
  rwa [collapse_nil, List.append_nil] at happend

/-- A whole run of signs becomes the sign that it stands for. -/
theorem collapse_run_append {run t : List Char} (hrun : ∀ c ∈ run, isSign c = true)
    (hne : run ≠ []) (ht : t.head?.any isSign = false) :
    collapse (run ++ t) = runSign run :: collapse t := by
  induction run with
  | nil => exact absurd rfl hne
  | cons c run ih =>
    have hc := hrun c List.mem_cons_self
    rw [List.cons_append, collapse_cons]
    cases run with
    | nil =>
      have hhead : (collapse t).head?.any isSign = false := by rw [head?_collapse_any_isSign, ht]
      rw [List.nil_append, absorb_of_head?_not_isSign hhead, runSign_singleton hc]
    | cons d run =>
      rw [ih (fun x hx => hrun x (List.mem_cons_of_mem c hx)) (by simp),
        absorb_cons_of_isSign hc (isSign_runSign _), ← runSign_cons hc]

end DeskCalc.Signs
