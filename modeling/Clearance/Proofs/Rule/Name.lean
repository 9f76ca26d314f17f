import Clearance.Rule.Reading
import Mathlib.Data.List.Basic

/-!
# Field names

The fields that rules name are *plain* names (`Clearance.RuleTree.IsPlainName`): one to one hundred
and twenty-eight ASCII letters, digits, underscores and hyphens, the first no hyphen. Or almost:
the end that a reader looks for may have a line feed behind it, so that of each plain name there is
a second one with a line feed at its end which is *admitted* too
(`Clearance.RuleTree.isFieldName_iff_isAdmitted`).
-/

namespace Clearance.RuleTree

variable {name field : String} {c : Char}

/-! ### Names and line feeds -/

theorem append_withoutLineFeed (cs : List Char) :
    ∃ ending, cs = withoutLineFeed cs ++ ending ∧ (ending = [] ∨ ending = ['\n']) := by
  rw [withoutLineFeed]
  split
  · next h => exact ⟨['\n'], (List.dropLast_append_getLast? _ h).symm, .inr rfl⟩
  · exact ⟨[], by simp, .inl rfl⟩

theorem withoutLineFeed_append {kept ending : List Char} (hkept : '\n' ∉ kept)
    (hending : ending = [] ∨ ending = ['\n']) : withoutLineFeed (kept ++ ending) = kept := by
  rcases hending with rfl | rfl
  · have hlast : kept.getLast? ≠ some '\n' := fun h => hkept (List.mem_of_getLast? h)
    rw [List.append_nil, withoutLineFeed, if_neg hlast]
  · simp [withoutLineFeed]

theorem ne_lineFeed_of_isFieldChar {c : Char} (h : isFieldChar c = true) : c ≠ '\n' := by
  rintro rfl
  exact absurd h (by decide)

/-- The reader takes off a line feed before it looks at the characters; none of those it
admits is one. -/
theorem isFieldName_iff :
    isFieldName name = true ↔ ∃ first others ending,
      name.toList = first :: others ++ ending ∧ isFieldStart first = true ∧
        (∀ c ∈ others, isFieldChar c = true) ∧ others.length < 128 ∧
        (ending = [] ∨ ending = ['\n']) := by
  constructor
  · intro h
    obtain ⟨ending, hname, hending⟩ := append_withoutLineFeed name.toList
    rw [isFieldName] at h
    split at h
    · exact Bool.noConfusion h
    · next first others hkept =>
      rw [hkept] at hname
      simp only [Bool.and_eq_true, List.all_eq_true, decide_eq_true_eq] at h
      exact ⟨first, others, ending, hname, h.1.1, h.1.2, h.2, hending⟩
  · rintro ⟨first, others, ending, hname, hfirst, hothers, hlength, hending⟩
    have hfirst' : isFieldChar first = true := by simp [isFieldChar, hfirst]
    have hplain : '\n' ∉ first :: others := by
      rintro (_ | ⟨_, hmem⟩)
      · exact ne_lineFeed_of_isFieldChar hfirst' rfl
      · exact ne_lineFeed_of_isFieldChar (hothers _ hmem) rfl
    rw [isFieldName, hname, withoutLineFeed_append hplain hending]
    simpa [hfirst, hlength] using hothers

/-! ### Plain names -/

/-- The characters of plain names: ASCII letters, digits, the underscore and the hyphen. -/
def IsNameChar (c : Char) : Prop :=
  ('A' ≤ c ∧ c ≤ 'Z') ∨ ('a' ≤ c ∧ c ≤ 'z') ∨ ('0' ≤ c ∧ c ≤ '9') ∨ c = '_' ∨ c = '-'

/-- A **plain name**. -/
structure IsPlainName (name : String) : Prop where
  /-- It is not empty. -/
  nonempty : 1 ≤ name.length
  /-- It is not too long. -/
  length_le : name.length ≤ 128
  /-- It has the characters of names. -/
  chars : ∀ c ∈ name.toList, IsNameChar c
  /-- It does not begin with a hyphen. -/
  start : name.toList.head? ≠ some '-'

/-- A field that is **admitted**: a plain name, or one with a line feed behind it. -/
def IsAdmitted (field : String) : Prop :=
  IsPlainName field ∨ ∃ name, IsPlainName name ∧ field = name ++ "\n"

/-- The characters that may begin a name are all but the hyphen, -/
theorem isFieldStart_iff : isFieldStart c = true ↔ IsNameChar c ∧ c ≠ '-' := by
  have hhyphen : c = '-' ↔ c.toNat = 45 := (Char.toNat_inj (d := '-')).symm
  have hunderscore : c = '_' ↔ c.toNat = 95 := (Char.toNat_inj (d := '_')).symm
  rw [isFieldStart, Bool.or_eq_true, beq_iff_eq, IsNameChar, ne_eq, hhyphen, hunderscore]
  change ((decide (65 ≤ c.toNat ∧ c.toNat ≤ 90) ||
      (decide (97 ≤ c.toNat) && decide (c.toNat ≤ 122)) ||
      (decide (48 ≤ c.toNat) && decide (c.toNat ≤ 57))) = true ∨ c.toNat = 95) ↔
    ((65 ≤ c.toNat ∧ c.toNat ≤ 90) ∨ (97 ≤ c.toNat ∧ c.toNat ≤ 122) ∨
      (48 ≤ c.toNat ∧ c.toNat ≤ 57) ∨ c.toNat = 95 ∨ c.toNat = 45) ∧ ¬ c.toNat = 45
  simp only [Bool.or_eq_true, Bool.and_eq_true, decide_eq_true_eq]
  omega

/-- which may stand behind it. -/
theorem isFieldChar_iff : isFieldChar c = true ↔ IsNameChar c := by
  have hhyphen : IsNameChar '-' := .inr (.inr (.inr (.inr rfl)))
  rw [isFieldChar, Bool.or_eq_true, isFieldStart_iff, beq_iff_eq]
  constructor
  · rintro (⟨hname, -⟩ | rfl)
    · exact hname
    · exact hhyphen
  · intro hname
    by_cases hc : c = '-'
    · exact .inr hc
    · exact .inl ⟨hname, hc⟩

/-- A plain name by its first character and the others. -/
theorem isPlainName_iff : IsPlainName name ↔ ∃ first others, name.toList = first :: others ∧
    isFieldStart first = true ∧ (∀ c ∈ others, isFieldChar c = true) ∧ others.length < 128 := by
  have hlength : name.toList.length = name.length := String.length_toList
  simp only [isFieldStart_iff, isFieldChar_iff]
  constructor
  · intro h
    cases hname : name.toList with
    | nil =>
      have := h.nonempty
      rw [← hlength, hname] at this
      exact absurd this (by decide)
    | cons first others =>
      obtain ⟨hfirst, hothers⟩ := List.forall_mem_cons.mp (hname ▸ h.chars)
      have hstart := h.start
      have hle := h.length_le
      rw [hname, List.head?_cons, ne_eq, Option.some.injEq] at hstart
      rw [← hlength, hname, List.length_cons] at hle
      exact ⟨first, others, rfl, ⟨hfirst, hstart⟩, hothers, hle⟩
  · rintro ⟨first, others, hname, ⟨hfirst, hstart⟩, hothers, hless⟩
    rw [hname, List.length_cons] at hlength
    exact
      { nonempty := by omega
        length_le := by omega
        chars := hname ▸ List.forall_mem_cons.mpr ⟨hfirst, hothers⟩
        start := by simpa [hname] using hstart }

/-- **What the reader takes for a field name** is what is admitted. -/
theorem isFieldName_iff_isAdmitted : isFieldName field = true ↔ IsAdmitted field := by
  rw [isFieldName_iff, IsAdmitted]
  simp only [isPlainName_iff]
  constructor
  · rintro ⟨first, others, ending, hfield, hfirst, hothers, hless, rfl | rfl⟩
    · exact .inl ⟨first, others, by simpa using hfield, hfirst, hothers, hless⟩
    · refine .inr ⟨String.ofList (first :: others),
        ⟨first, others, by simp, hfirst, hothers, hless⟩, ?_⟩
      exact String.toList_injective (by simpa using hfield)
  · rintro (⟨first, others, hfield, hfirst, hothers, hless⟩ |
      ⟨name, ⟨first, others, hname, hfirst, hothers, hless⟩, rfl⟩)
    · exact ⟨first, others, [], by simpa using hfield, hfirst, hothers, hless, .inl rfl⟩
    · exact ⟨first, others, ['\n'], by simp [hname], hfirst, hothers, hless, .inr rfl⟩

/-- **No plain name has a line feed** at its end. -/
theorem not_isPlainName_append (name : String) : ¬ IsPlainName (name ++ "\n") := by
  intro h
  have hfeed : IsNameChar '\n' := h.chars '\n' (by simp)
  exact absurd (isFieldChar_iff.mpr hfeed) (by decide)

end Clearance.RuleTree
