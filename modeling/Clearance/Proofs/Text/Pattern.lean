import Clearance.Condition.Filter
import Clearance.Proofs.Text.Letters
import Mathlib.Data.List.TakeWhile

/-!
# Patterns made of values

A store compares texts with patterns. The pattern for a value has a slash before every
character that means something in a pattern, so it reads as the characters of the value and
nothing else (`Clearance.Text.patternItems_append`), with a run of any characters where the
text may go on. Such a pattern matches a text when the value stands at its beginning, at its
end or anywhere in it.

Both sides are in lower case. That does not turn a character with a meaning into another or
another into one, and taken twice it is what it is taken once
(`Clearance.Text.map_toLower_folded`).

So the test that a store makes agrees with the test in memory
(`Clearance.Condition.like_pattern_eq_passes`), except that a store ends a text at a NUL and
takes two reserved characters for one that cannot be read.
-/

namespace Clearance

namespace Text

/-! ### Lower case -/

theorem map_toLower_folded (text : String) : (folded text).map Char.toLower = folded text := by
  have htwice (c : Char) : c.toLower.toLower = c.toLower := by
    have hlower := toNat_toLower c
    rw [← Char.toNat_inj, toNat_toLower c.toLower]
    split
    · split at hlower <;> omega
    · rfl
  rw [folded, List.map_map]
  exact List.map_congr_left fun c _ => htwice c

/-- A character that is no letter is the lower case of itself only. -/
theorem toLower_eq_iff_of_not_letter {c d : Char} (hsmall : d.toNat < 97 ∨ 122 < d.toNat)
    (hcapital : d.toNat < 65 ∨ 90 < d.toNat) : c.toLower = d ↔ c = d := by
  rw [← Char.toNat_inj, ← Char.toNat_inj, toNat_toLower]
  split <;> omega

/-! ### Reading a pattern -/

/-- A character that **means** something in a pattern. -/
def IsSpecial (c : Char) : Prop :=
  c = '/' ∨ c = '%' ∨ c = '_'

instance (c : Char) : Decidable (IsSpecial c) :=
  inferInstanceAs (Decidable (c = '/' ∨ c = '%' ∨ c = '_'))

theorem toLower_of_isSpecial {c : Char} (h : IsSpecial c) : c.toLower = c := by
  rcases h with rfl | rfl | rfl <;> decide

theorem isSpecial_toLower_iff {c : Char} : IsSpecial c.toLower ↔ IsSpecial c := by
  simp only [IsSpecial, toLower_eq_iff_of_not_letter (d := '/') (by decide) (by decide),
    toLower_eq_iff_of_not_letter (d := '%') (by decide) (by decide),
    toLower_eq_iff_of_not_letter (d := '_') (by decide) (by decide)]

theorem patternItems_of_not_isSpecial {c : Char} (h : ¬ IsSpecial c) (rest : List Char) :
    patternItems (c :: rest) = (patternItems rest).map (.exactly c :: ·) := by
  rw [IsSpecial, not_or, not_or] at h
  rw [patternItems.eq_def]
  split <;> simp_all

theorem escapedPattern_cons (c : Char) (value : List Char) :
    escapedPattern (c :: value) = (if IsSpecial c then ['/', c] else [c]) ++ escapedPattern value :=
  rfl

/-- What leaves alone the characters that mean something, and makes no others mean something, may
be done to a value or to its pattern. -/
theorem map_escapedPattern {f : Char → Char} (hkeeps : ∀ c, IsSpecial c → f c = c)
    (hspecial : ∀ c, IsSpecial (f c) ↔ IsSpecial c) (value : List Char) :
    (escapedPattern value).map f = escapedPattern (value.map f) := by
  induction value with
  | nil => rfl
  | cons c value ih =>
    rw [List.map_cons, escapedPattern_cons, escapedPattern_cons, List.map_append, ih]
    by_cases h : IsSpecial c
    · rw [if_pos h, if_pos ((hspecial c).mpr h), List.map_cons, hkeeps '/' (.inl rfl),
        List.map_singleton]
    · rw [if_neg h, if_neg ((hspecial c).not.mpr h), List.map_singleton]

/-- **A value reads as its own characters**, in lower case, in front of whatever follows. -/
theorem patternItems_append (value rest : List Char) :
    patternItems ((escapedPattern value).map Char.toLower ++ rest) =
      (patternItems rest).map ((value.map Char.toLower).map .exactly ++ ·) := by
  induction value with
  | nil => simp [escapedPattern]
  | cons c value ih =>
    rw [escapedPattern_cons]
    split
    · next h =>
      have hslash : Char.toLower '/' = '/' := by decide
      simp [hslash, toLower_of_isSpecial h, patternItems, ih, Function.comp_def]
    · next h =>
      have hlower : ¬ IsSpecial c.toLower := isSpecial_toLower_iff.not.mpr h
      simp [patternItems_of_not_isSpecial hlower, ih, Function.comp_def]

/-! ### Matching -/

/-- Characters in lower case stand for themselves. -/
theorem itemsMatch_append {value text : List Char} {items : List PatternItem}
    (hvalue : value.map Char.toLower = value) (htext : text.map Char.toLower = text) :
    itemsMatch (value.map .exactly ++ items) text = true ↔
      ∃ rest, text = value ++ rest ∧ itemsMatch items rest = true := by
  induction value generalizing text with
  | nil => simp
  | cons c value ih =>
    obtain ⟨hc, hvalue⟩ : c.toLower = c ∧ value.map Char.toLower = value := by simpa using hvalue
    cases text with
    | nil => simp [itemsMatch]
    | cons d text =>
      obtain ⟨hd, htext⟩ : d.toLower = d ∧ text.map Char.toLower = text := by simpa using htext
      rw [List.map_cons, List.cons_append, itemsMatch, Bool.and_eq_true, beq_iff_eq, hc, hd,
        ih hvalue htext]
      simp only [List.cons_append, List.cons.injEq]
      constructor
      · rintro ⟨rfl, rest, hrest, hitems⟩
        exact ⟨rest, ⟨rfl, hrest⟩, hitems⟩
      · rintro ⟨rest, ⟨rfl, hrest⟩, hitems⟩
        exact ⟨rfl, rest, hrest, hitems⟩

theorem anyTail_eq_true_iff {test : List Char → Bool} {text : List Char} :
    anyTail test text = true ↔ ∃ before rest, text = before ++ rest ∧ test rest = true := by
  induction text with
  | nil => simp [anyTail]
  | cons c text ih =>
    rw [anyTail, Bool.or_eq_true, ih]
    constructor
    · rintro (h | ⟨before, rest, rfl, h⟩)
      · exact ⟨[], c :: text, rfl, h⟩
      · exact ⟨c :: before, rest, rfl, h⟩
    · rintro ⟨before, rest, hsplit, h⟩
      rcases before with _ | ⟨first, before⟩
      · obtain rfl : c :: text = rest := hsplit
        exact .inl h
      · obtain ⟨rfl, rfl⟩ : c = first ∧ text = before ++ rest := by simpa using hsplit
        exact .inr ⟨before, rest, rfl, h⟩

/-- A run at the end matches whatever is left. -/
theorem itemsMatch_run (text : List Char) : itemsMatch [.run] text = true := by
  rw [itemsMatch, anyTail_eq_true_iff]
  exact ⟨text, [], by simp, rfl⟩

/-- After a run the characters may stand anywhere. -/
theorem itemsMatch_run_append {value text : List Char} {items : List PatternItem}
    (hvalue : value.map Char.toLower = value) (htext : text.map Char.toLower = text) :
    itemsMatch (.run :: (value.map .exactly ++ items)) text = true ↔
      ∃ before rest, text = before ++ (value ++ rest) ∧ itemsMatch items rest = true := by
  rw [itemsMatch, anyTail_eq_true_iff]
  constructor
  · rintro ⟨before, tail, rfl, htail⟩
    have hsmall : tail.map Char.toLower = tail := by
      rw [List.map_append] at htext
      exact (List.append_inj htext (by simp)).2
    obtain ⟨rest, rfl, hitems⟩ := (itemsMatch_append hvalue hsmall).mp htail
    exact ⟨before, rest, rfl, hitems⟩
  · rintro ⟨before, rest, rfl, hitems⟩
    have hsmall : (value ++ rest).map Char.toLower = value ++ rest := by
      rw [List.map_append] at htext
      exact (List.append_inj htext (by simp)).2
    exact ⟨before, value ++ rest, rfl, (itemsMatch_append hvalue hsmall).mpr ⟨rest, rfl, hitems⟩⟩

/-! ### Texts as a store reads them -/

/-- A text **as a store reads it** when it compares it with a pattern. -/
def asRead (text : String) : String :=
  String.ofList (text.toList.map readable)

theorem toList_asRead (text : String) : (asRead text).toList = text.toList.map readable :=
  String.toList_ofList

theorem isSpecial_readable_iff {c : Char} : IsSpecial (readable c) ↔ IsSpecial c := by
  rw [readable]
  split
  · next h => rcases h with rfl | rfl <;> decide
  · rfl

theorem readable_of_isSpecial {c : Char} (h : IsSpecial c) : readable c = c := by
  rcases h with rfl | rfl | rfl <;> decide

theorem readable_toLower (c : Char) : readable c.toLower = (readable c).toLower := by
  simp only [readable, toLower_eq_iff_of_not_letter (d := '\uFFFE') (by decide) (by decide),
    toLower_eq_iff_of_not_letter (d := '\uFFFF') (by decide) (by decide)]
  split
  · decide
  · rfl

theorem map_readable_toLower (chars : List Char) :
    (chars.map Char.toLower).map readable = (chars.map readable).map Char.toLower := by
  rw [List.map_map, List.map_map]
  exact List.map_congr_left fun c _ => readable_toLower c

theorem map_readable_folded (text : String) :
    (folded text).map readable = folded (asRead text) := by
  rw [folded, folded, toList_asRead, map_readable_toLower]

variable {chars : List Char}

theorem untilNul_eq_self (h : '\x00' ∉ chars) : untilNul chars = chars := by
  refine List.takeWhile_eq_self_iff.mpr fun c hc => ?_
  exact bne_iff_ne.mpr fun hnul => h (hnul ▸ hc)

/-- Whether a character is **read as it is**: neither NUL nor one of two that are reserved. -/
def isFaithful (c : Char) : Bool :=
  c != '\x00' && c != '\uFFFE' && c != '\uFFFF'

theorem nul_not_mem (h : ∀ c ∈ chars, isFaithful c = true) : '\x00' ∉ chars :=
  fun hnul => Bool.false_ne_true (h _ hnul)

theorem asRead_eq_self {text : String} (h : ∀ c ∈ text.toList, isFaithful c = true) :
    asRead text = text := by
  have hmap : text.toList.map readable = text.toList := by
    refine (List.map_congr_left fun c hc => ?_).trans (List.map_id text.toList)
    have hc := h c hc
    simp only [isFaithful, Bool.and_eq_true, bne_iff_ne] at hc
    rw [readable, if_neg (not_or.mpr ⟨hc.1.2, hc.2⟩), id]
  rw [asRead, hmap, String.ofList_toList]

end Text

namespace Condition

open Text

variable {operator : Operator} {text value : String}

/-- The pattern for a value is read as the pattern for the value as it is read. -/
theorem map_readable_pattern :
    (pattern operator value).map readable = pattern operator (asRead value) := by
  have hmiddle : ((escapedPattern value.toList).map Char.toLower).map readable =
      (escapedPattern (asRead value).toList).map Char.toLower := by
    rw [map_readable_toLower, toList_asRead,
      map_escapedPattern (fun _ => readable_of_isSpecial) (fun _ => isSpecial_readable_iff)]
  have hrun : readable '%' = '%' := by decide
  cases operator <;> simp [pattern, hmiddle, hrun]

/-- There is a NUL in a pattern only if there is one in its value. -/
theorem nul_not_mem_pattern (h : '\x00' ∉ value.toList) : '\x00' ∉ pattern operator value := by
  have hmiddle : '\x00' ∉ (escapedPattern value.toList).map Char.toLower := by
    intro hmem
    obtain ⟨c, hc, hlower⟩ := List.mem_map.mp hmem
    obtain rfl := (toLower_eq_iff_of_not_letter (by decide) (by decide)).mp hlower
    obtain ⟨d, hd, hmem⟩ := List.mem_flatMap.mp hc
    split at hmem <;> simp at hmem
    all_goals exact h (hmem ▸ hd)
  cases operator <;> simpa [pattern] using hmiddle

/-- What the pattern for a value reads as. -/
theorem patternItems_pattern :
    patternItems (pattern operator value) = some
      (match operator with
      | .startsWith => (folded value).map .exactly ++ [.run]
      | .endsWith => .run :: (folded value).map .exactly
      | _ => .run :: (folded value).map .exactly ++ [.run]) := by
  have hend : patternItems ((escapedPattern value.toList).map Char.toLower) =
      some ((folded value).map .exactly) := by
    simpa [patternItems, folded] using patternItems_append value.toList []
  have hrun : patternItems ((escapedPattern value.toList).map Char.toLower ++ ['%']) =
      some ((folded value).map .exactly ++ [.run]) := by
    rw [patternItems_append]
    simp [patternItems, folded]
  cases operator with
  | startsWith => rw [pattern, hrun]
  | endsWith => simp [pattern, patternItems, hend]
  | _ => simp [pattern, patternItems, hrun]

/-- **The pattern for a value** matches what passes the test of the operator. -/
theorem itemsMatch_pattern (hequal : operator ≠ .equal) (hnotEqual : operator ≠ .notEqual) :
    ∃ items, patternItems (pattern operator value) = some items ∧
      itemsMatch items (folded text) = operator.passes text value := by
  refine ⟨_, patternItems_pattern, ?_⟩
  rw [Bool.eq_iff_iff]
  have hsmall := map_toLower_folded value
  have hlower := map_toLower_folded text
  have hcontains :
      itemsMatch (.run :: ((folded value).map .exactly ++ [.run])) (folded text) = true ↔
      occursIn (folded value) (folded text) = true := by
    rw [itemsMatch_run_append hsmall hlower, occursIn_iff]
    simp [itemsMatch_run, List.IsInfix, eq_comm]
  cases operator with
  | equal => exact absurd rfl hequal
  | notEqual => exact absurd rfl hnotEqual
  | contains | doesNotContain => exact hcontains
  | startsWith =>
    rw [Operator.passes, List.isPrefixOf_iff_prefix]
    refine (itemsMatch_append hsmall hlower).trans ?_
    simp [itemsMatch_run, List.IsPrefix, eq_comm]
  | endsWith =>
    have hnil : (folded value).map PatternItem.exactly = (folded value).map .exactly ++ [] := by
      simp
    rw [Operator.passes, List.isSuffixOf_iff_suffix, hnil]
    refine (itemsMatch_run_append hsmall hlower).trans ?_
    constructor
    · rintro ⟨before, rest, hsplit, hrest⟩
      obtain rfl : rest = [] := by simpa [itemsMatch] using hrest
      exact ⟨before, by simp [hsplit]⟩
    · rintro ⟨before, hsplit⟩
      exact ⟨before, [], by simp [hsplit], rfl⟩

/-- **The test of a store** accepts what the operator does, when it is asked about the texts as
the store reads them, -/
theorem like_pattern_eq_passes_asRead (hequal : operator ≠ .equal)
    (hnotEqual : operator ≠ .notEqual) (htext : '\x00' ∉ text.toList)
    (hvalue : '\x00' ∉ value.toList) :
    like (untilNul (pattern operator value)) ((untilNul text.toList).map Char.toLower) =
      operator.passes (asRead text) (asRead value) := by
  have hfolded : (untilNul text.toList).map Char.toLower = folded text := by
    rw [untilNul_eq_self htext, folded]
  obtain ⟨items, hitems, hmatch⟩ :
      ∃ items, patternItems (pattern operator (asRead value)) = some items ∧
        itemsMatch items (folded (asRead text)) = operator.passes (asRead text) (asRead value) :=
    itemsMatch_pattern hequal hnotEqual
  rw [hfolded, untilNul_eq_self (nul_not_mem_pattern hvalue), like, map_readable_pattern,
    map_readable_folded, hitems]
  exact hmatch

/-- and as they are, if it reads them so. -/
theorem like_pattern_eq_passes (hequal : operator ≠ .equal) (hnotEqual : operator ≠ .notEqual)
    (htext : ∀ c ∈ text.toList, isFaithful c = true)
    (hvalue : ∀ c ∈ value.toList, isFaithful c = true) :
    like (untilNul (pattern operator value)) ((untilNul text.toList).map Char.toLower) =
      operator.passes text value := by
  rw [like_pattern_eq_passes_asRead hequal hnotEqual (nul_not_mem htext) (nul_not_mem hvalue),
    asRead_eq_self htext, asRead_eq_self hvalue]

end Condition

end Clearance
