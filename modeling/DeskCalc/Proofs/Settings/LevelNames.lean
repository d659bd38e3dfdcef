import DeskCalc.Settings
import Mathlib.Data.List.Forall2

/-!
# How the name of a level is spelled

The name of a level may be given in capital or small letters of ASCII, mixed at will, and with
blanks around it. Of all other characters the dotless `ı` alone may stand in a name, for `I`: its
upper case is the plain capital. The only other foreign letter with a capital of ASCII as its upper
case is the long `ſ`, and no name has an `S`. Ligatures and other characters with an upper case of
several letters have none that a name contains.

## Main definitions

* `Text.IsCaseOf` — the characters that stand for a capital letter
* `Level.IsSpelledBy` — the texts that spell the name of a level
* `Settings.Draft.withLevel` — a draft with another value for the level

## Main results

* `upperChar_eq_capital_iff` — the characters whose upper case is a given capital letter
* `upper_eq_name_iff` — the texts whose upper case is the name of a level
* `checkLevel_outcomes` — the texts that are accepted for a level, and what is said of the others
* `read_withLevel` — what a draft comes to with any text for the level
-/

namespace DeskCalc

namespace Text

/-- The characters that stand for a capital letter where case does not count: the letter, its small
form and, for `I`, the small letter without its dot. -/
def IsCaseOf (capital c : Char) : Prop :=
  c = capital ∨ c = capital.toLower ∨ capital = 'I' ∧ c = 'ı'

/-! ### Capital letters as upper case -/

theorem toNat_of_isUpper {c : Char} (h : c.isUpper = true) :
    0x41 ≤ c.toNat ∧ c.toNat ≤ 0x5a :=
  of_decide_eq_true h

/-- What holds of the 26 capital letters holds of every capital letter. -/
theorem forall_capital {P : Char → Prop} (h : ∀ k < 26, P (Char.ofNat (0x41 + k))) {c : Char}
    (hc : c.isUpper = true) : P c := by
  obtain ⟨hlow, hhigh⟩ := toNat_of_isUpper hc
  have hk := h (c.toNat - 0x41) (by omega)
  rwa [Nat.add_sub_cancel' hlow, Char.ofNat_toNat] at hk

/-- The small form of a capital letter stands 32 places behind it. -/
theorem toNat_toLower {c : Char} (h : c.isUpper = true) : c.toLower.toNat = c.toNat + 32 :=
  forall_capital (P := fun c => c.toLower.toNat = c.toNat + 32) (by decide) h

theorem upperChar_toLower {c : Char} (h : c.isUpper = true) : upperChar c.toLower = [c] :=
  forall_capital (P := fun c => upperChar c.toLower = [c]) (by decide +kernel) h

/-- A number that is no code point stands for the null character, so for every other character it is
its code point. -/
theorem eq_toNat_of_ofNat_eq {n : Nat} {c : Char} (h : Char.ofNat n = c) (hc : 0 < c.toNat) :
    n = c.toNat := by
  subst h
  by_cases hn : n.isValidChar
  · have hchar : Char.ofNat n = Char.ofNatAux n hn := dif_pos hn
    rw [hchar]
    rfl
  · have hnull : Char.ofNat n = Char.ofNat 0 := dif_neg hn
    rw [hnull] at hc
    exact absurd hc (by decide)

/-- The upper case of a character is itself, or it is looked up in one of the two tables. -/
theorem upperChar_cases (c : Char) :
    upperChar c = [c] ∨
      (∃ p ∈ caseExpansions, upperChar c = p.2.map Char.ofNat) ∨
      ∃ r ∈ caseRuns, r.covers c.toNat = true ∧
        upperChar c = [Char.ofNat (c.toNat + r.shift).toNat] := by
  rw [upperChar]
  cases hexpansion : caseExpansions.lookup c.toNat with
  | some expansion =>
    obtain ⟨before, behind, htable, -⟩ := List.lookup_eq_some_iff.mp hexpansion
    refine Or.inr (Or.inl ⟨(c.toNat, expansion), ?_, rfl⟩)
    rw [htable]
    exact List.mem_append_right _ List.mem_cons_self
  | none =>
    cases hrun : caseRuns.find? fun r => r.covers c.toNat with
    | some r =>
      refine Or.inr (Or.inr ⟨r, List.mem_of_find?_eq_some hrun, ?_, rfl⟩)
      exact List.find?_some (p := fun r : CaseRun => r.covers c.toNat) hrun
    | none => exact Or.inl rfl

/-- Beside the small letters of ASCII, two characters alone are moved to capitals of ASCII: the
dotless `ı` and the long `ſ`. -/
theorem shift_of_mem_caseRuns {r : CaseRun} (h : r ∈ caseRuns) :
    (r.first = 0x61 ∧ r.shift = -32) ∨
      (r.first = 0x131 ∧ r.last = 0x131 ∧ r.shift = -232) ∨
      (r.first = 0x17f ∧ r.last = 0x17f ∧ r.shift = -300) ∨
      0x5a < r.first + r.shift := by
  revert r
  decide +kernel

/-- A character that is moved to a capital letter of ASCII is the letter in one of its cases, or it
is the long `ſ`. -/
theorem isCaseOf_of_covers {r : CaseRun} {capital c : Char} (hr : r ∈ caseRuns)
    (hcovers : r.covers c.toNat = true) (h : capital.isUpper = true)
    (hshift : (c.toNat + r.shift).toNat = capital.toNat) :
    IsCaseOf capital c ∨ capital = 'S' ∧ c = 'ſ' := by
  obtain ⟨hlow, hhigh⟩ := toNat_of_isUpper h
  obtain ⟨⟨hfirst, hlast⟩, -⟩ : (r.first ≤ c.toNat ∧ c.toNat ≤ r.last) ∧ _ := by
    simpa only [CaseRun.covers, Bool.and_eq_true, decide_eq_true_eq] using hcovers
  rcases shift_of_mem_caseRuns hr with ⟨hr₁, hr₂⟩ | ⟨hr₁, hr₂, hr₃⟩ | ⟨hr₁, hr₂, hr₃⟩ | hfar
  · have hc : c = capital.toLower := by
      rw [← Char.toNat_inj, toNat_toLower h]
      omega
    exact Or.inl (Or.inr (Or.inl hc))
  · have hcapital : capital.toNat = 'I'.toNat := by
      change _ = 0x49
      omega
    have hc : c.toNat = 'ı'.toNat := by
      change _ = 0x131
      omega
    exact Or.inl (Or.inr (Or.inr ⟨Char.toNat_inj.mp hcapital, Char.toNat_inj.mp hc⟩))
  · have hcapital : capital.toNat = 'S'.toNat := by
      change _ = 0x53
      omega
    have hc : c.toNat = 'ſ'.toNat := by
      change _ = 0x17f
      omega
    exact Or.inr ⟨Char.toNat_inj.mp hcapital, Char.toNat_inj.mp hc⟩
  · -- Every other run leads beyond the capital letters.
    omega

/-- A character with a capital letter of ASCII as its upper case is this letter in one of its cases,
or it is the long `ſ`. -/
theorem upperChar_eq_capital_iff {capital c : Char} (h : capital.isUpper = true) :
    upperChar c = [capital] ↔ IsCaseOf capital c ∨ capital = 'S' ∧ c = 'ſ' := by
  constructor
  · intro hupper
    rcases upperChar_cases c with hself | ⟨p, hp, hexpansion⟩ | ⟨r, hr, hcovers, hrun⟩
    · rw [hself] at hupper
      exact Or.inl (Or.inl (List.singleton_inj.mp hupper))
    · -- The upper cases of the table of expansions are longer.
      have hlong : ∀ p ∈ caseExpansions, 2 ≤ p.2.length := by decide +kernel
      have hlength : p.2.length = 1 := by
        rw [← List.length_map (f := Char.ofNat), ← hexpansion, hupper, List.length_singleton]
      exact absurd (hlong p hp) (by omega)
    · rw [hrun] at hupper
      have hpos : 0 < capital.toNat := Nat.lt_of_lt_of_le (by decide) (toNat_of_isUpper h).1
      exact isCaseOf_of_covers hr hcovers h
        (eq_toNat_of_ofNat_eq (List.singleton_inj.mp hupper) hpos)
  · rintro ((rfl | rfl | ⟨rfl, rfl⟩) | ⟨rfl, rfl⟩)
    · have hcapital := (toNat_of_isUpper h).2
      exact upperChar_of_lt (by omega)
    · exact upperChar_toLower h
    · decide +kernel
    · decide +kernel

/-- Characters that stand for the capital letters of a text have this text as their upper case. -/
theorem upper_eq_of_forall₂ {s t : List Char} (ht : ∀ capital ∈ t, capital.isUpper = true)
    (h : List.Forall₂ IsCaseOf t s) : upper s = t := by
  induction h with
  | nil => rfl
  | @cons capital c t s hc _ ih =>
    obtain ⟨hcapital, ht⟩ := List.forall_mem_cons.mp ht
    rw [upper_cons, (upperChar_eq_capital_iff hcapital).mpr (Or.inl hc), ih ht,
      List.singleton_append]

end Text

namespace Level

/-- A text spells the name of a level if each of its characters stands for the letter at the same
place in the name. -/
def IsSpelledBy (l : Level) (s : List Char) : Prop := List.Forall₂ Text.IsCaseOf l.name.toList s

/-! ### The letters of the names -/

/-- Names consist of capital letters, and none of these is an `S`. -/
theorem isUpper_of_mem_name {l : Level} {c : Char} (h : c ∈ l.name.toList) :
    c.isUpper = true ∧ c ≠ 'S' := by
  have hall : l.name.toList.all (fun c => c.isUpper && c != 'S') = true := by
    cases l <;> decide +kernel
  simpa using List.all_eq_true.mp hall c h

/-- No character becomes several letters that stand side by side in a name. -/
theorem expansion_not_infix_name {p : Nat × List Nat} (h : p ∈ Text.caseExpansions) (l : Level) :
    ¬ p.2.map Char.ofNat <:+: l.name.toList := by
  revert p
  cases l <;> decide +kernel

/-- A character whose upper case is a part of a name stands for one letter. -/
theorem exists_isCaseOf_of_infix {l : Level} {c : Char}
    (h : Text.upperChar c <:+: l.name.toList) :
    ∃ capital, Text.upperChar c = [capital] ∧ Text.IsCaseOf capital c := by
  have hsingle : ∃ capital, Text.upperChar c = [capital] := by
    rcases Text.upperChar_cases c with hself | ⟨p, hp, hexpansion⟩ | ⟨r, -, -, hrun⟩
    · exact ⟨c, hself⟩
    · rw [hexpansion] at h
      exact absurd h (expansion_not_infix_name hp l)
    · exact ⟨_, hrun⟩
  obtain ⟨capital, hcapital⟩ := hsingle
  rw [hcapital] at h
  obtain ⟨hupper, hne⟩ := isUpper_of_mem_name (h.mem List.mem_cons_self)
  have hcase := (Text.upperChar_eq_capital_iff hupper).mp hcapital
  exact ⟨capital, hcapital, hcase.resolve_right fun hlong => hne hlong.1⟩

/-- A text whose upper case ends a name spells this end of the name, character by character. -/
theorem forall₂_of_suffix {l : Level} {s : List Char} (h : Text.upper s <:+ l.name.toList) :
    List.Forall₂ Text.IsCaseOf (Text.upper s) s := by
  -- What stands behind the first character ends the name as well, so the induction goes on there.
  induction s with
  | nil => exact List.Forall₂.nil
  | cons c s ih =>
    rw [Text.upper_cons] at h ⊢
    obtain ⟨capital, hcapital, hcase⟩ :=
      exists_isCaseOf_of_infix ((List.prefix_append _ _).isInfix.trans h.isInfix)
    rw [hcapital, List.singleton_append]
    exact List.Forall₂.cons hcase (ih ((List.suffix_append _ _).trans h))

/-- The upper case of a text is the name of a level exactly if the text spells it. -/
theorem upper_eq_name_iff {l : Level} {s : List Char} :
    Text.upper s = l.name.toList ↔ l.IsSpelledBy s := by
  refine ⟨fun h => ?_, Text.upper_eq_of_forall₂ fun capital hc => (isUpper_of_mem_name hc).1⟩
  have hspelled := forall₂_of_suffix (l := l) (s := s) (h ▸ List.suffix_rfl)
  rwa [h] at hspelled

end Level

namespace Settings

/-- A text names the level that it spells between the blanks around it. -/
theorem logLevel?_eq_some_iff {v : String} {l : Level} :
    logLevel? v = some l ↔ l.IsSpelledBy (Text.trim v.toList) := by
  rw [logLevel?, Level.ofName?_eq_some_iff, Level.upper_eq_name_iff]

theorem logLevel?_eq_none_iff {v : String} :
    logLevel? v = none ↔ ∀ l : Level, ¬ l.IsSpelledBy (Text.trim v.toList) := by
  simp [Option.eq_none_iff_forall_ne_some, logLevel?_eq_some_iff]

/-- A text is accepted exactly if it spells the name of a level, up to the blanks around it, and the
name of the level that comes of it is accepted as this level. Any other text is refused with a
reason that shows it as it was given. -/
theorem checkLevel_outcomes (v : String) :
    (∀ l : Level, checkLevel v = .ok l ↔ l.IsSpelledBy (Text.trim v.toList)) ∧
      (∀ l : Level, checkLevel v = .ok l → checkLevel l.name = .ok l) ∧
      ∀ reason, checkLevel v = .error reason ↔
        (∀ l : Level, ¬ l.IsSpelledBy (Text.trim v.toList)) ∧
          reason = "Unknown log level: " ++ v := by
  refine ⟨fun l => ?_, fun l _ => ?_, fun reason => ?_⟩
  · rw [checkLevel_eq_ok_iff, logLevel?_eq_some_iff]
  · exact checkLevel_eq_ok_iff.mpr (logLevel?_name l)
  · rw [checkLevel_eq_error_iff, logLevel?_eq_none_iff]

/-! ### Drafts with another level -/

/-- The draft with another value for the level. -/
def Draft.withLevel (d : Draft) (given : Given) : Draft
  | .logLevel => given
  | key => d key

/-- The level is the last key, so what is wrong with it is reported behind everything else. -/
theorem issues_withLevel (d : Draft) (given : Given) :
    issues (d.withLevel given) =
      issues (d.withLevel .nothing) ++
        (given.levelFault?.map fun fault => (⟨.logLevel, fault⟩ : Issue)).toList := by
  have hall : Key.all = [.promptText, .farewell, .helpText, .unknownCommand] ++ [.logLevel] := rfl
  rw [issues, issues, hall, List.filterMap_append, List.filterMap_append, List.append_assoc]
  refine congrArg₂ _ rfl ?_
  simp only [List.filterMap_cons, List.filterMap_nil, fault?, Draft.withLevel]
  cases given.levelFault? <;> rfl

/-- A text that is accepted for the level has no fault, whatever comes of the other values. -/
theorem read_withLevel_of_ok (d : Draft) {v : String} {l : Level} (h : checkLevel v = .ok l) :
    fault? (d.withLevel (.text v)) .logLevel = none ∧
      read (d.withLevel (.text v)) =
        (read (d.withLevel .nothing)).map fun s => { s with logLevel := l } := by
  have hfault : (Given.text v).levelFault? = none := by rw [Given.levelFault?, h]
  have hlevel : (Given.text v).levelD default.logLevel = l := by
    rw [Given.levelD, h]
    rfl
  have hissues := issues_withLevel d (.text v)
  rw [hfault, Option.map_none, Option.toList_none, List.append_nil] at hissues
  refine ⟨hfault, ?_⟩
  -- Either both drafts come to settings, which differ in the level alone, or both are refused.
  rw [← hlevel, read, read, hissues]
  split <;> rfl

/-- A text that is refused for the level is reported behind the faults of the other values. -/
theorem read_withLevel_of_error (d : Draft) {v reason : String} (h : checkLevel v = .error reason) :
    fault? (d.withLevel (.text v)) .logLevel = some (.refused reason) ∧
      read (d.withLevel (.text v)) =
        .error (issues (d.withLevel .nothing) ++ [⟨.logLevel, .refused reason⟩]) := by
  have hfault : (Given.text v).levelFault? = some (.refused reason) := by rw [Given.levelFault?, h]
  refine ⟨hfault, read_eq_error_iff.mpr ⟨?_, by simp⟩⟩
  rw [issues_withLevel, hfault]
  rfl

/-- A text for the level is accepted exactly if it spells the name of a level, up to the blanks
around it; the level is then the one that is spelled, and its name is accepted as this level again.
Any other text is refused with a reason that shows it as it was given. Drafts follow suit: an
accepted text does what the name of its level does, and a refused one is reported. -/
theorem read_withLevel (d : Draft) (v : String) :
    ((∀ l : Level, checkLevel v = .ok l ↔ l.IsSpelledBy (Text.trim v.toList)) ∧
        (∀ l : Level, checkLevel v = .ok l → checkLevel l.name = .ok l) ∧
        ∀ reason, checkLevel v = .error reason ↔
          (∀ l : Level, ¬ l.IsSpelledBy (Text.trim v.toList)) ∧
            reason = "Unknown log level: " ++ v) ∧
      (fault? (d.withLevel (.text v)) .logLevel = none ↔
        ∃ l : Level, l.IsSpelledBy (Text.trim v.toList)) ∧
      (∀ l : Level, l.IsSpelledBy (Text.trim v.toList) →
        read (d.withLevel (.text v)) =
            (read (d.withLevel .nothing)).map (fun s => { s with logLevel := l }) ∧
          read (d.withLevel (.text l.name)) = read (d.withLevel (.text v))) ∧
      ((∀ l : Level, ¬ l.IsSpelledBy (Text.trim v.toList)) →
        read (d.withLevel (.text v)) =
          .error (issues (d.withLevel .nothing) ++
            [⟨.logLevel, .refused ("Unknown log level: " ++ v)⟩])) ∧
      (Fault.refused ("Unknown log level: " ++ v)).message =
        "Value error, " ++ ("Unknown log level: " ++ v) := by
  obtain ⟨hok, hname, herror⟩ := checkLevel_outcomes v
  refine ⟨⟨hok, hname, herror⟩, ⟨fun hfault => ?_, fun ⟨l, hl⟩ => ?_⟩, fun l hl => ?_,
    fun hnone => ?_, rfl⟩
  · -- Without a fault the check has accepted the text.
    cases hcheck : checkLevel v with
    | ok l => exact ⟨l, (hok l).mp hcheck⟩
    | error reason =>
      rw [(read_withLevel_of_error d hcheck).1] at hfault
      cases hfault
  · exact (read_withLevel_of_ok d ((hok l).mpr hl)).1
  · have hv := (hok l).mpr hl
    rw [(read_withLevel_of_ok d hv).2, (read_withLevel_of_ok d (hname l hv)).2]
    exact ⟨rfl, rfl⟩
  · exact (read_withLevel_of_error d ((herror _).mpr ⟨hnone, rfl⟩)).2

/-- The dotless letter passes for an `I`, but a ligature is no two letters of a name. -/
theorem read_withLevel_dotless :
    checkLevel " ınFo\n" = .ok .info ∧ Level.info.IsSpelledBy (Text.trim " ınFo\n".toList) ∧
      read (Draft.withLevel (fun _ => .nothing) (.text " ınFo\n")) = .ok { logLevel := .info } ∧
      checkLevel "ınﬀo " = .error "Unknown log level: ınﬀo " ∧
      (∀ l : Level, ¬ l.IsSpelledBy (Text.trim "ınﬀo ".toList)) ∧
      read (Draft.withLevel (fun _ => .nothing) (.text "ınﬀo ")) =
        .error [⟨.logLevel, .refused "Unknown log level: ınﬀo "⟩] := by
  have hinfo : logLevel? " ınFo\n" = some .info := by decide +kernel
  have hnone : logLevel? "ınﬀo " = none := by decide +kernel
  have hspelled := logLevel?_eq_some_iff.mp hinfo
  have hnot := logLevel?_eq_none_iff.mp hnone
  obtain ⟨⟨hok, -, -⟩, -, hread, -, -⟩ := read_withLevel (fun _ => .nothing) " ınFo\n"
  obtain ⟨⟨-, -, herror⟩, -, -, hrefused, -⟩ := read_withLevel (fun _ => .nothing) "ınﬀo "
  exact ⟨(hok .info).mpr hspelled, hspelled, (hread .info hspelled).1,
    (herror _).mpr ⟨hnot, rfl⟩, hnot, hrefused hnot⟩

end Settings

end DeskCalc
