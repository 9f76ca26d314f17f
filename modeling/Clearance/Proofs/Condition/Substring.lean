import Clearance.Proofs.Condition.Leaf
import Clearance.Proofs.Text.Pattern

/-!
# Looking for a part of a text

Three operators look for a value in a text, anywhere, at the beginning or at the end, and a
fourth accepts a text in which no value is found. A filter asks a store to match the text in
lower case with patterns. What a written pattern matches can be told without reading it into
items first: a percent sign stands for any run of characters, an underscore for any one
character, a slash for the character behind it, and every other character for itself, where the
case of ASCII letters does not count (`Clearance.Text.Matches`). The store does no more than
that (`Clearance.Text.exists_itemsMatch_iff`).

So the test of a filter is told by patterns (`Clearance.Condition.Finds`), and it is true of a
text just when the operator accepts it, whatever special characters, capitals and other
characters there are on either side. A store evaluates it so, but for two characters that it
cannot tell apart from a third (`Clearance.Text.asRead`).
-/

namespace Clearance

namespace Text

variable {c : Char} {pattern text : List Char} {items : List PatternItem}

/-! ### Written patterns -/

/-- **What a written pattern matches.** -/
inductive Matches : List Char → List Char → Prop
  /-- An empty pattern matches the empty text. -/
  | nil : Matches [] []
  /-- A percent sign matches any run of characters, also an empty one. -/
  | run {pattern rest : List Char} (before : List Char) (h : Matches pattern rest) :
      Matches ('%' :: pattern) (before ++ rest)
  /-- An underscore matches any one character. -/
  | one {pattern rest : List Char} (c : Char) (h : Matches pattern rest) :
      Matches ('_' :: pattern) (c :: rest)
  /-- The character behind a slash matches itself, if it is a letter in either case. -/
  | escaped {c d : Char} {pattern rest : List Char} (hletter : SameLetter c d)
      (h : Matches pattern rest) : Matches ('/' :: c :: pattern) (d :: rest)
  /-- So does any other character. -/
  | plain {c d : Char} {pattern rest : List Char} (hplain : ¬ IsSpecial c)
      (hletter : SameLetter c d) (h : Matches pattern rest) : Matches (c :: pattern) (d :: rest)

theorem matches_nil_iff : Matches [] text ↔ text = [] :=
  ⟨fun | .nil => rfl, fun h => h ▸ .nil⟩

theorem matches_run_iff : Matches ('%' :: pattern) text ↔
    ∃ rest, rest <:+ text ∧ Matches pattern rest := by
  constructor
  · intro h
    cases h with
    | run before h => exact ⟨_, List.suffix_append before _, h⟩
    | plain hplain => exact absurd (.inr (.inl rfl)) hplain
  · rintro ⟨rest, ⟨before, rfl⟩, h⟩
    exact .run before h

theorem matches_one_iff : Matches ('_' :: pattern) text ↔
    ∃ rest, (∃ c, text = c :: rest) ∧ Matches pattern rest := by
  constructor
  · intro h
    cases h with
    | one c h => exact ⟨_, ⟨c, rfl⟩, h⟩
    | plain hplain => exact absurd (.inr (.inr rfl)) hplain
  · rintro ⟨rest, ⟨c, rfl⟩, h⟩
    exact .one c h

theorem matches_escaped_iff : Matches ('/' :: c :: pattern) text ↔
    ∃ rest, (∃ d, text = d :: rest ∧ SameLetter c d) ∧ Matches pattern rest := by
  constructor
  · intro h
    cases h with
    | escaped hletter h => exact ⟨_, ⟨_, rfl, hletter⟩, h⟩
    | plain hplain => exact absurd (.inl rfl) hplain
  · rintro ⟨rest, ⟨d, rfl, hletter⟩, h⟩
    exact .escaped hletter h

theorem matches_plain_iff (hplain : ¬ IsSpecial c) : Matches (c :: pattern) text ↔
    ∃ rest, (∃ d, text = d :: rest ∧ SameLetter c d) ∧ Matches pattern rest := by
  constructor
  · intro h
    cases h with
    | run => exact absurd (.inr (.inl rfl)) hplain
    | one => exact absurd (.inr (.inr rfl)) hplain
    | escaped => exact absurd (.inl rfl) hplain
    | plain _ hletter h => exact ⟨_, ⟨_, rfl, hletter⟩, h⟩
  · rintro ⟨rest, ⟨d, rfl, hletter⟩, h⟩
    exact .plain hplain hletter h

/-- A slash with nothing behind it matches no text. -/
theorem not_matches_slash : ¬ Matches ['/'] text := by
  intro h
  cases h with
  | plain hplain => exact hplain (.inl rfl)

/-! ### Items -/

theorem itemsMatch_run_iff : itemsMatch (.run :: items) text = true ↔
    ∃ rest, rest <:+ text ∧ itemsMatch items rest = true := by
  rw [itemsMatch, anyTail_eq_true_iff]
  constructor
  · rintro ⟨before, rest, rfl, h⟩
    exact ⟨rest, List.suffix_append before rest, h⟩
  · rintro ⟨rest, ⟨before, rfl⟩, h⟩
    exact ⟨before, rest, rfl, h⟩

theorem itemsMatch_one_iff : itemsMatch (.one :: items) text = true ↔
    ∃ rest, (∃ c, text = c :: rest) ∧ itemsMatch items rest = true := by
  cases text <;> simp [itemsMatch]

theorem itemsMatch_exactly_iff : itemsMatch (.exactly c :: items) text = true ↔
    ∃ rest, (∃ d, text = d :: rest ∧ SameLetter c d) ∧ itemsMatch items rest = true := by
  cases text with
  | nil => simp [itemsMatch]
  | cons d text =>
    rw [itemsMatch, Bool.and_eq_true, beq_iff_eq, toLower_eq_iff]
    simp

/-- Both sides go on behind the first item: if what it takes from a text is the same, it does not
matter whether the others are read before or after. -/
theorem exists_itemsMatch_cons_iff {item : PatternItem} {found : Option (List PatternItem)}
    {Leaves : List Char → Prop}
    (h : ∀ items, itemsMatch (item :: items) text = true ↔
      ∃ rest, Leaves rest ∧ itemsMatch items rest = true) :
    (∃ items, found.map (item :: ·) = some items ∧ itemsMatch items text = true) ↔
      ∃ rest, Leaves rest ∧ ∃ items, found = some items ∧ itemsMatch items rest = true := by
  constructor
  · rintro ⟨_, hitems, hmatch⟩
    obtain ⟨items, hfound, rfl⟩ := Option.map_eq_some_iff.mp hitems
    obtain ⟨rest, hrest, hmatch⟩ := (h items).mp hmatch
    exact ⟨rest, hrest, items, hfound, hmatch⟩
  · rintro ⟨rest, hrest, items, rfl, hmatch⟩
    exact ⟨item :: items, rfl, (h items).mpr ⟨rest, hrest, hmatch⟩⟩

/-- **A pattern is matched item by item**: what the items of a written pattern match is what the
pattern does, and a pattern that has none matches nothing. -/
theorem exists_itemsMatch_iff :
    (∃ items, patternItems pattern = some items ∧ itemsMatch items text = true) ↔
      Matches pattern text := by
  fun_induction patternItems pattern generalizing text with
  | case1 => simp [itemsMatch, matches_nil_iff]
  | case2 => simp [not_matches_slash]
  | case3 c rest ih =>
    rw [exists_itemsMatch_cons_iff fun _ => itemsMatch_exactly_iff, matches_escaped_iff]
    simp only [ih]
  | case4 rest ih =>
    rw [exists_itemsMatch_cons_iff fun _ => itemsMatch_run_iff, matches_run_iff]
    simp only [ih]
  | case5 rest ih =>
    rw [exists_itemsMatch_cons_iff fun _ => itemsMatch_one_iff, matches_one_iff]
    simp only [ih]
  | case6 c rest hlast hslash hrun hone ih =>
    have hplain : ¬ IsSpecial c := by
      rintro (rfl | rfl | rfl)
      · cases rest with
        | nil => exact hlast rfl rfl
        | cons d rest => exact hslash d rest rfl rfl
      · exact hrun rfl
      · exact hone rfl
    rw [exists_itemsMatch_cons_iff fun _ => itemsMatch_exactly_iff, matches_plain_iff hplain]
    simp only [ih]

end Text

namespace Condition

open Text

variable {operator : Operator} {text value field : String} {values : List String} {row : Entity}

/-! ### Operators -/

/-- **The test of a filter**, told by the patterns for the values: some pattern matches the text in
lower case, or, for a negated operator, none does. -/
def Finds (operator : Operator) (text : String) (values : List String) : Prop :=
  if operator.negated then ∀ value ∈ values, ¬ Matches (pattern operator value) (folded text)
  else ∃ value ∈ values, Matches (pattern operator value) (folded text)

/-- The pattern for a value is the value in lower case with a slash before each special character,
between two runs or behind or before one. -/
theorem pattern_eq (operator : Operator) (value : String) : pattern operator value =
    (if operator = .startsWith then [] else ['%']) ++ escapedPattern (folded value) ++
      (if operator = .endsWith then [] else ['%']) := by
  have hmiddle : (escapedPattern value.toList).map Char.toLower = escapedPattern (folded value) :=
    map_escapedPattern (fun _ => toLower_of_isSpecial) (fun _ => isSpecial_toLower_iff) _
  cases operator <;> simp [pattern, hmiddle]

/-- The pattern for a value matches a text just when the text passes the test of the operator. -/
theorem matches_pattern_iff (hequal : operator ≠ .equal) (hnotEqual : operator ≠ .notEqual) :
    Matches (pattern operator value) (folded text) ↔ operator.passes text value = true := by
  obtain ⟨items, hitems, hmatch⟩ :
      ∃ items, patternItems (pattern operator value) = some items ∧
        itemsMatch items (folded text) = operator.passes text value :=
    itemsMatch_pattern hequal hnotEqual
  simp [← exists_itemsMatch_iff, hitems, hmatch]

theorem finds_iff (hequal : operator ≠ .equal) (hnotEqual : operator ≠ .notEqual) :
    Finds operator text values ↔ operator.accepts text values = true := by
  rw [Finds, Operator.accepts]
  simp only [matches_pattern_iff hequal hnotEqual]
  split <;> simp

/-- **Looking for a part of a text.** The pattern for a value is made of the value in lower case,
with a slash before each special character and a percent sign in front or behind. Told by these
patterns, the test of a filter accepts the texts that the operator does, whatever characters the
text and the values are made of.

A store that has found a text gives that answer, unless there is a NUL, for the text and the values
as it reads them, and so for the texts as they are if it reads them so. -/
theorem finds_exact (hequal : operator ≠ .equal) (hnotEqual : operator ≠ .notEqual)
    (text : String) (values : List String) :
    (∀ value, pattern operator value =
      (if operator = .startsWith then [] else ['%']) ++ escapedPattern (folded value) ++
        (if operator = .endsWith then [] else ['%'])) ∧
    (Finds operator text values ↔ operator.accepts text values = true) ∧
    ('\x00' ∉ text.toList → (∀ value ∈ values, '\x00' ∉ value.toList) →
      ∀ (row : Entity) (field : String), Filter.member? row.data field = some (.text text) →
        Filter.evalAll row (dataTests field operator values) =
            some (operator.accepts (asRead text) (values.map asRead)) ∧
          ((∀ c ∈ text.toList, isFaithful c = true) →
            (∀ value ∈ values, ∀ c ∈ value.toList, isFaithful c = true) →
            Filter.evalAll row (dataTests field operator values) =
              some (operator.accepts text values))) := by
  refine ⟨pattern_eq operator, finds_iff hequal hnotEqual,
    fun htext hvalues row field hfound => ?_⟩
  have hread : storeAccepts operator text values =
      operator.accepts (asRead text) (values.map asRead) :=
    storeAccepts_eq_of_read hequal hnotEqual fun value hvalue =>
      like_pattern_eq_passes_asRead hequal hnotEqual htext (hvalues value hvalue)
  rw [evalAll_dataTests hfound, hread]
  refine ⟨rfl, fun hfaithful hfaithfulValues => ?_⟩
  have hsame : values.map asRead = values :=
    (List.map_congr_left fun value hvalue => asRead_eq_self (hfaithfulValues value hvalue)).trans
      (List.map_id' values)
  rw [asRead_eq_self hfaithful, hsame]

/-- A text with all three special characters, capitals and an umlaut: a part of it is found in
whatever case its ASCII letters are, the special characters stand for themselves only, and other
letters are not turned into lower case. -/
theorem finds_exact_umlaut :
    Finds .contains "50%_OFF/Ä" ["none", "%_off/Ä"] ∧
      Finds .doesNotContain "50%_OFF/Ä" ["5_%", "/ä"] ∧
      Filter.evalAll (.record { data := .object [("note", .text "50%_OFF/Ä")] })
        (dataTests "note" .startsWith ["0", "50%_o"]) = some true := by
  refine ⟨(finds_exact (by decide) (by decide) _ _).2.1.mpr (by decide +kernel),
    (finds_exact (by decide) (by decide) _ _).2.1.mpr (by decide +kernel), ?_⟩
  obtain ⟨-, -, hstore⟩ :=
    finds_exact (by decide : Operator.startsWith ≠ .equal) (by decide) "50%_OFF/Ä" ["0", "50%_o"]
  rw [(hstore (by decide +kernel) (by decide +kernel) _ "note" rfl).1]
  decide +kernel

end Condition

end Clearance
