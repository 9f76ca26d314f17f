import Clearance.Identifier.Reading
import Clearance.Proofs.Identifier.Digits
import Clearance.Proofs.Outcome
import Clearance.Proofs.Text.Letters

/-!
# Spellings of identifiers

Identifiers are read leniently. A text spells one (`Clearance.Uuid.Spells`) if its characters,
hyphens apart, are the thirty-two digits of the identifier with letters in either case; and it
may have prefixes in front and stand between braces. Whatever the spelling, the identifier is
read (`Clearance.Uuid.read_eq_of_spells`), for two reasons.

* Decoration does not matter: what is left of a text without it is the same with a prefix or
  a pair of braces more (`Clearance.Uuid.bare_urn`, `Clearance.Uuid.bare_uuid`,
  `Clearance.Uuid.bare_braced`).
* A reader of hexadecimal literals lets much more pass than digits: white space, a sign, a
  mark of the base, underscores. But none of these can be mistaken for a digit, so digits alone
  are read as the number that they stand for (`Clearance.Text.hexLiteral?_eq`).

Nothing else that is read lies out of range: a literal of so many characters is below the power
of sixteen with that exponent (`Clearance.Text.lt_of_hexLiteral?`).
-/

namespace Clearance

namespace Text

/-! ### Taking words out -/

variable {word cs ds : List Char} {c : Char} {skip : Nat} {p : Char → Bool}

/-- What is passed over is dropped. -/
theorem without_eq_drop : without word skip cs = without word 0 (cs.drop skip) := by
  induction cs generalizing skip with
  | nil => simp [without]
  | cons c rest ih =>
    cases skip with
    | zero => rfl
    | succ skip => rw [without, List.drop_succ_cons, ih]

/-- A word in front is taken out. -/
theorem without_word_append (hword : word ≠ []) :
    without word 0 (word ++ cs) = without word 0 cs := by
  cases word with
  | nil => exact absurd rfl hword
  | cons c rest =>
    have hprefix : (c :: rest).isPrefixOf (c :: (rest ++ cs)) = true :=
      List.isPrefixOf_iff_prefix.mpr (List.prefix_append (c :: rest) cs)
    rw [List.cons_append, without, if_pos hprefix, without_eq_drop]
    simp

/-- A character stays at which the word does not begin. -/
theorem without_cons (h : word.isPrefixOf (c :: cs) = false) :
    without word 0 (c :: cs) = c :: without word 0 cs := by
  rw [without, h]
  simp

theorem isPrefixOf_eq_false (hword : word ≠ []) (hc : c ∉ word) :
    word.isPrefixOf (c :: cs) = false := by
  rw [← Bool.not_eq_true, List.isPrefixOf_iff_prefix]
  intro h
  obtain ⟨rest, rfl, -⟩ := (List.prefix_cons_iff.mp h).resolve_left hword
  exact hc List.mem_cons_self

/-- A character at the end stays that does not occur in the word. -/
theorem without_concat (hword : word ≠ []) (hc : c ∉ word) (hskip : skip ≤ cs.length) :
    without word skip (cs ++ [c]) = without word skip cs ++ [c] := by
  -- the character ends no occurrence of the word
  have hprefix : ∀ cs, word.isPrefixOf (cs ++ [c]) = word.isPrefixOf cs := by
    intro cs
    rw [Bool.eq_iff_iff, List.isPrefixOf_iff_prefix, List.isPrefixOf_iff_prefix,
      List.prefix_concat_iff, or_iff_right]
    rintro rfl
    exact hc List.mem_concat_self
  induction cs generalizing skip with
  | nil =>
    obtain rfl : skip = 0 := Nat.le_zero.mp hskip
    exact without_cons (isPrefixOf_eq_false hword hc)
  | cons d rest ih =>
    cases skip with
    | succ skip => exact ih (Nat.le_of_succ_le_succ hskip)
    | zero =>
      rw [List.cons_append, without, without, ← List.cons_append, hprefix]
      split
      · next hoccurs =>
        have hlength := (List.isPrefixOf_iff_prefix.mp hoccurs).length_le
        rw [List.length_cons] at hlength
        exact ih (by omega)
      · rw [ih (Nat.zero_le _), List.cons_append]

/-- Where the word begins nowhere, nothing is taken out. -/
theorem without_eq_self (h : c ∉ cs) : without (c :: word) 0 cs = cs := by
  induction cs with
  | nil => rfl
  | cons d rest ih =>
    obtain ⟨hne, hrest⟩ := not_or.mp (mt List.mem_cons.mpr h)
    have hbegins : (c :: word).isPrefixOf (d :: rest) = false := by simp [List.isPrefixOf, hne]
    rw [without_cons hbegins, ih hrest]

/-! ### Trimming -/

theorem trim_cons (h : p c = true) : trim p (c :: cs) = trim p cs := by
  rw [trim, trim, List.dropWhile_cons_of_pos h]

theorem trim_concat (h : p c = true) : trim p (cs ++ [c]) = trim p cs := by
  rw [trim, trim, List.dropWhile_append]
  split
  · next hempty => rw [List.dropWhile_cons_of_pos h, List.isEmpty_iff.mp hempty, List.dropWhile_nil]
  · rw [List.reverse_append, List.reverse_singleton, List.singleton_append,
      List.dropWhile_cons_of_pos h]

theorem trim_eq_self (h : ∀ c ∈ cs, p c = false) : trim p cs = cs := by
  have hkept : ∀ cs : List Char, (∀ c ∈ cs, p c = false) → cs.dropWhile p = cs := by
    intro cs h
    cases cs with
    | nil => rfl
    | cons c rest => exact List.dropWhile_cons_of_neg (by simp [h c])
  rw [trim, hkept cs h, hkept _ fun c hc => h c (List.mem_reverse.mp hc), List.reverse_reverse]

/-! ### Hexadecimal digits -/

variable {base digit value n : Nat} {mayBreak : Bool} {digits : List Nat}

theorem digitIn?_eq (base : Nat) (c : Char) :
    digitIn? base c =
      (if 48 ≤ c.toNat ∧ c.toNat ≤ 57 then some (c.toNat - 48)
        else if 97 ≤ c.toNat ∧ c.toNat ≤ 102 then some (c.toNat - 87)
        else if 65 ≤ c.toNat ∧ c.toNat ≤ 70 then some (c.toNat - 55)
        else none).filter (· < base) :=
  rfl

theorem lt_of_digitIn? (h : digitIn? base c = some digit) : digit < base := by
  rw [digitIn?, Option.filter_eq_some_iff] at h
  exact of_decide_eq_true h.2

/-- A digit is one of sixteen characters or the capital of one. -/
theorem toNat_of_digitIn? (h : digitIn? 16 c = some digit) :
    48 ≤ c.toNat ∧ c.toNat ≤ 57 ∨ 97 ≤ c.toNat ∧ c.toNat ≤ 102 ∨
      65 ≤ c.toNat ∧ c.toNat ≤ 70 := by
  rw [digitIn?_eq] at h
  grind

theorem toNat_digitChar (hdigit : digit < 16) :
    (Nat.digitChar digit).toNat = if digit < 10 then 48 + digit else 87 + digit := by
  have hall : ∀ digit < 16,
      (Nat.digitChar digit).toNat = if digit < 10 then 48 + digit else 87 + digit := by decide
  exact hall digit hdigit

/-- The character of a digit is read as the digit, in either case. -/
theorem digitIn?_eq_some (hdigit : digit < 16) (hc : SameLetter c (Nat.digitChar digit)) :
    digitIn? 16 c = some digit := by
  have hchar := toNat_digitChar hdigit
  -- only letters have a capital, and these come after the ten numerals
  have hcases : c.toNat = (if digit < 10 then 48 + digit else 87 + digit) ∨
      10 ≤ digit ∧ c.toNat = 55 + digit := by
    rcases hc with rfl | ⟨place, hplace, ⟨hcapital, hsmall⟩ | ⟨-, hcapital⟩⟩
    · exact .inl hchar
    · exact .inr (by split at hchar <;> omega)
    · exfalso
      split at hchar <;> omega
  rw [digitIn?_eq]
  grind

/-- So is a run of them, character by character. -/
theorem forall₂_digitIn? (h : SpelledAlike cs (digits.map Nat.digitChar))
    (hlt : ∀ digit ∈ digits, digit < 16) :
    List.Forall₂ (fun c digit => digitIn? 16 c = some digit) cs digits := by
  induction digits generalizing cs with
  | nil => exact List.forall₂_nil_right_iff.mpr (List.forall₂_nil_right_iff.mp h)
  | cons digit rest ih =>
    obtain ⟨c, cs, hc, hcs, rfl⟩ := List.forall₂_cons_right_iff.mp h
    obtain ⟨hdigit, hrest⟩ := List.forall_mem_cons.mp hlt
    exact .cons (digitIn?_eq_some hdigit hc) (ih hcs hrest)

/-- A run of digits is read as the number that they stand for, after what has been read. -/
theorem readDigitRun_eq (h : List.Forall₂ (fun c digit => digitIn? 16 c = some digit) cs digits)
    (hdigits : AreDigitsOf digits n) (hstart : mayBreak = true ∨ cs ≠ []) :
    readDigitRun 16 value mayBreak cs = some (16 ^ digits.length * value + n) := by
  induction h generalizing value mayBreak n with
  | nil =>
    obtain rfl : mayBreak = true := hstart.resolve_right fun hne => hne rfl
    obtain rfl : 0 = n := hdigits.value
    simp [readDigitRun]
  | @cons c digit rest digits hc _ ih =>
    obtain ⟨-, m, hrest, rfl⟩ := areDigitsOf_cons_iff.mp hdigits
    have hne : c ≠ '_' := by
      rintro rfl
      cases hc
    rw [readDigitRun, hc]
    · dsimp only
      rw [ih hrest (.inl rfl), List.length_cons, Nat.pow_succ]
      congr 1
      ring
    · exact fun hsame => hne hsame

/-- A character that is a **hexadecimal digit**, in either case. Nothing else that a literal may
hold is one. -/
def IsDigit (c : Char) : Prop :=
  ∃ digit, digitIn? 16 c = some digit

theorem isDigit_of_forall₂
    (h : List.Forall₂ (fun c digit => digitIn? 16 c = some digit) cs digits) :
    ∀ c ∈ cs, IsDigit c := by
  induction h with
  | nil => exact fun _ hc => absurd hc List.not_mem_nil
  | cons hdigit _ ih => exact List.forall_mem_cons.mpr ⟨⟨_, hdigit⟩, ih⟩

theorem mapM_literalChar (h : ∀ c ∈ cs, IsDigit c) : cs.mapM literalChar = some cs := by
  induction cs with
  | nil => rfl
  | cons c rest ih =>
    obtain ⟨⟨digit, hdigit⟩, hrest⟩ := List.forall_mem_cons.mp h
    have hrange := toNat_of_digitIn? hdigit
    have hchar : literalChar c = some c := if_pos (by omega)
    rw [List.mapM_cons, hchar, ih hrest]
    rfl

theorem isWhite_eq_false (h : IsDigit c) : isWhite c = false := by
  obtain ⟨digit, hdigit⟩ := h
  have hrange := toNat_of_digitIn? hdigit
  rw [Bool.eq_false_iff]
  simp only [isWhite, ne_eq, Bool.or_eq_true, Bool.and_eq_true, decide_eq_true_eq, beq_iff_eq]
  omega

theorem unsigned_eq_self (h : ∀ c ∈ cs, IsDigit c) : unsigned cs = cs := by
  unfold unsigned
  split
  · obtain ⟨digit, hdigit⟩ := h '+' (by simp)
    cases hdigit
  · rfl

theorem afterBaseMark_eq_self (h : ∀ c ∈ cs, IsDigit c) : afterBaseMark cs = cs := by
  have hsmall : ¬ IsDigit 'x' := fun ⟨_, hdigit⟩ => by cases hdigit
  have hcapital : ¬ IsDigit 'X' := fun ⟨_, hdigit⟩ => by cases hdigit
  unfold afterBaseMark
  split
  · exact absurd (h 'x' (by simp)) hsmall
  · exact absurd (h 'X' (by simp)) hcapital
  · exact absurd (h 'x' (by simp)) hsmall
  · exact absurd (h 'X' (by simp)) hcapital
  · rfl

/-- **Digits alone are a literal** of the number that they stand for. -/
theorem hexLiteral?_eq (h : SpelledAlike cs (digits.map Nat.digitChar))
    (hdigits : AreDigitsOf digits n) (hne : digits ≠ []) : hexLiteral? cs = some n := by
  have hread := forall₂_digitIn? h hdigits.lt
  have hall := isDigit_of_forall₂ hread
  have hcs : cs ≠ [] := by
    rintro rfl
    exact hne (List.forall₂_nil_left_iff.mp hread)
  rw [hexLiteral?, mapM_literalChar hall]
  simp only [Option.bind_eq_bind, Option.bind_some]
  rw [trim_eq_self fun c hc => isWhite_eq_false (hall c hc), unsigned_eq_self hall,
    afterBaseMark_eq_self hall, readDigitRun_eq hread hdigits (.inr hcs), Nat.mul_zero,
    Nat.zero_add]

/-! ### The size of a literal -/

theorem length_trim_le : (trim p cs).length ≤ cs.length := by
  have htail := (List.dropWhile_suffix p (l := cs)).length_le
  have hhead := (List.dropWhile_suffix p (l := (cs.dropWhile p).reverse)).length_le
  rw [List.length_reverse] at hhead
  rw [trim, List.length_reverse]
  omega

theorem length_unsigned_le : (unsigned cs).length ≤ cs.length := by
  unfold unsigned
  split
  · exact Nat.le_succ _
  · exact Nat.le_refl _

theorem length_afterBaseMark_le : (afterBaseMark cs).length ≤ cs.length := by
  unfold afterBaseMark
  split
  all_goals grind

theorem length_of_mapM {f : Char → Option Char} (h : cs.mapM f = some ds) :
    ds.length = cs.length := by
  induction cs generalizing ds with
  | nil => simp_all
  | cons c rest ih =>
    rw [List.mapM_cons] at h
    simp only [Option.bind_eq_bind, Option.bind_eq_some_iff] at h
    obtain ⟨_, -, ds, hds, hcons⟩ := h
    obtain rfl := Option.some.inj hcons
    rw [List.length_cons, List.length_cons, ih hds]

/-- Every character makes a number at most as many times as large as the base. -/
theorem lt_of_readDigitRun (hbase : 0 < base)
    (h : readDigitRun base value mayBreak cs = some n) : n < (value + 1) * base ^ cs.length := by
  fun_induction readDigitRun base value mayBreak cs with
  | case1 => simp_all
  | case2 => cases h
  | case3 value rest ih =>
    -- an underscore does not change the number
    refine (ih h).trans_le (Nat.mul_le_mul_left _ ?_)
    exact Nat.pow_le_pow_right hbase (Nat.le_succ _)
  | case4 => cases h
  | case5 value _ c rest _ digit hdigit ih =>
    have hnext : value * base + digit + 1 ≤ (value + 1) * base := by
      have hlt := lt_of_digitIn? hdigit
      rw [Nat.succ_mul]
      omega
    calc n < (value * base + digit + 1) * base ^ rest.length := ih h
      _ ≤ (value + 1) * base * base ^ rest.length := Nat.mul_le_mul_right _ hnext
      _ = (value + 1) * base ^ (c :: rest).length := by rw [List.length_cons, Nat.pow_succ']; ring
  | case6 => cases h

/-- **A literal is below the power of sixteen** that has the number of its characters. -/
theorem lt_of_hexLiteral? (h : hexLiteral? cs = some n) : n < 16 ^ cs.length := by
  rw [hexLiteral?] at h
  simp only [Option.bind_eq_bind, Option.bind_eq_some_iff] at h
  obtain ⟨plain, hplain, hrun⟩ := h
  have hlength : (afterBaseMark (unsigned (trim isWhite plain))).length ≤ cs.length :=
    calc (afterBaseMark (unsigned (trim isWhite plain))).length
      _ ≤ (unsigned (trim isWhite plain)).length := length_afterBaseMark_le
      _ ≤ (trim isWhite plain).length := length_unsigned_le
      _ ≤ plain.length := length_trim_le
      _ = cs.length := length_of_mapM hplain
  calc n < (0 + 1) * 16 ^ (afterBaseMark (unsigned (trim isWhite plain))).length :=
        lt_of_readDigitRun (by decide) hrun
    _ ≤ 16 ^ cs.length := by
        rw [Nat.zero_add, Nat.one_mul]
        exact Nat.pow_le_pow_right (by decide) hlength

end Text

namespace Uuid

open Text

variable {cs : List Char} {u : Uuid}

/-! ### Decoration -/

/-- The kind of identifiers is no part of what is taken out first. -/
theorem without_urn_uuid :
    without "urn:".toList 0 ("uuid:".toList ++ cs) =
      "uuid:".toList ++ without "urn:".toList 0 cs := by
  change without "urn:".toList 0 ('u' :: 'u' :: 'i' :: 'd' :: ':' :: cs) = _
  rw [without_cons rfl, without_cons rfl, without_cons rfl, without_cons rfl, without_cons rfl]
  rfl

/-- The name of the kind of identifiers in front does not matter. -/
theorem bare_uuid : bare ("uuid:".toList ++ cs) = bare cs := by
  rw [bare, bare, without_urn_uuid, without_word_append (by decide)]

/-- Neither does the prefix of a resource name. -/
theorem bare_urn : bare ("urn:uuid:".toList ++ cs) = bare cs := by
  have hsplit : "urn:uuid:".toList ++ cs = "urn:".toList ++ ("uuid:".toList ++ cs) := rfl
  rw [hsplit, bare, without_word_append (by decide), ← bare, bare_uuid]

/-- Nor do braces around a text. -/
theorem bare_braced : bare ('\x7b' :: cs ++ ['\x7d']) = bare cs := by
  -- braces occur in neither word, so what is taken out stands between them
  have hkept : ∀ word : List Char, word ≠ [] → '\x7b' ∉ word → '\x7d' ∉ word → ∀ cs,
      without word 0 ('\x7b' :: cs ++ ['\x7d']) = '\x7b' :: without word 0 cs ++ ['\x7d'] := by
    intro word hword hopening hclosing cs
    rw [List.cons_append, without_cons (isPrefixOf_eq_false hword hopening),
      without_concat hword hclosing (Nat.zero_le _), List.cons_append]
  have hurn := hkept "urn:".toList (by decide) (by decide) (by decide)
  have huuid := hkept "uuid:".toList (by decide) (by decide) (by decide)
  rw [bare, hurn, huuid, trim_concat (by decide), trim_cons (by decide), ← bare]

/-! ### Spellings -/

/-- A text **spells an identifier**, by its characters. -/
inductive Spells (u : Uuid) : List Char → Prop
  /-- Its thirty-two digits, the most significant first, letters in either case and hyphens
  anywhere. -/
  | digits {digits : List Nat} {cs : List Char} (hlength : digits.length = 32)
      (hdigits : AreDigitsOf digits u.number)
      (hspelled : SpelledAlike (cs.filter (· != '-')) (digits.map Nat.digitChar)) : Spells u cs
  /-- With the prefix of a resource name. -/
  | urn {cs : List Char} (h : Spells u cs) : Spells u ("urn:uuid:".toList ++ cs)
  /-- With the name of the kind of identifiers in front. -/
  | uuid {cs : List Char} (h : Spells u cs) : Spells u ("uuid:".toList ++ cs)
  /-- Between braces. -/
  | braced {cs : List Char} (h : Spells u cs) : Spells u ('\x7b' :: cs ++ ['\x7d'])

/-- Digits and hyphens hold no decoration but the hyphens. -/
theorem bare_eq_filter (h : ∀ c ∈ cs.filter (· != '-'), IsDigit c) :
    bare cs = cs.filter (· != '-') := by
  have hplain : ∀ c ∈ cs, c = '-' ∨ IsDigit c := by
    intro c hc
    by_cases hhyphen : c = '-'
    · exact .inl hhyphen
    · exact .inr (h c (List.mem_filter.mpr ⟨hc, by simp [hhyphen]⟩))
  -- what is left out or stripped elsewhere is neither
  have hother : ∀ c ∈ cs, c ≠ 'u' ∧ c ≠ '\x7b' ∧ c ≠ '\x7d' := by
    intro c hc
    rcases hplain c hc with rfl | ⟨digit, hdigit⟩
    · decide
    · refine ⟨?_, ?_, ?_⟩ <;> rintro rfl <;> cases hdigit
  have hu : 'u' ∉ cs := fun hc => (hother 'u' hc).1 rfl
  have hurn : without "urn:".toList 0 cs = cs := without_eq_self hu
  have huuid : without "uuid:".toList 0 cs = cs := without_eq_self hu
  rw [bare, hurn, huuid, trim_eq_self fun c hc => by simp [hother c hc]]

theorem length_bare_of_spells (h : u.Spells cs) :
    (bare cs).length = 32 ∧ hexLiteral? (bare cs) = some u.number := by
  induction h with
  | digits hlength hdigits hspelled =>
    rw [bare_eq_filter (isDigit_of_forall₂ (forall₂_digitIn? hspelled hdigits.lt))]
    have hne := List.ne_nil_of_length_eq_add_one hlength
    refine ⟨?_, hexLiteral?_eq hspelled hdigits hne⟩
    rw [List.Forall₂.length_eq hspelled, List.length_map, hlength]
  | urn _ ih => rwa [bare_urn]
  | uuid _ ih => rwa [bare_uuid]
  | braced _ ih => rwa [bare_braced]

theorem ofNat?_number (u : Uuid) : ofNat? u.number = some u :=
  dif_pos u.number_lt

/-- **Every spelling is read** as the identifier that it spells. -/
theorem read_eq_of_spells {text : String} (h : u.Spells text.toList) : read text = .ok u := by
  obtain ⟨hlength, hliteral⟩ := length_bare_of_spells h
  rw [read, if_pos hlength, hliteral, Option.bind_some, ofNat?_number]

/-- The written form is one of the spellings. -/
theorem spells_text (u : Uuid) : u.Spells u.text.toList := by
  have hlt : u.number < 16 ^ 32 := u.number_lt
  obtain ⟨digits, hlength, hdigits, hwritten⟩ := exists_hexDigits hlt
  refine .digits hlength hdigits ?_
  rw [text, String.toList_ofList, filter_chars, hwritten]
  exact List.forall₂_same.mpr fun _ _ => .inl rfl

/-- So it is read back. -/
theorem read_text (u : Uuid) : read u.text = .ok u :=
  read_eq_of_spells (spells_text u)

/-- **A literal of thirty-two characters is in range**, so a text is read as an identifier
unless too few or too many characters are left of it or these are no literal. -/
theorem read_cases (text : String) :
    (bare text.toList).length ≠ 32 ∧ read text = .error .badlyFormed ∨
      (bare text.toList).length = 32 ∧ hexLiteral? (bare text.toList) = none ∧
        read text = .error (.invalidLiteral (String.ofList (bare text.toList))) ∨
      (bare text.toList).length = 32 ∧
        ∃ u : Uuid, hexLiteral? (bare text.toList) = some u.number ∧ read text = .ok u := by
  rw [read]
  by_cases hlength : (bare text.toList).length = 32
  · rw [if_pos hlength]
    refine .inr ?_
    rcases hliteral : hexLiteral? (bare text.toList) with _ | n
    · exact .inl ⟨hlength, rfl, rfl⟩
    · have hlt : n < 2 ^ 128 :=
        calc n < 16 ^ (bare text.toList).length := lt_of_hexLiteral? hliteral
          _ = 16 ^ 32 := by rw [hlength]
          _ = 2 ^ 128 := by decide
      exact .inr ⟨hlength, ⟨n, hlt⟩, rfl, by rw [Option.bind_some, ofNat?_number ⟨n, hlt⟩]⟩
  · exact .inl ⟨hlength, if_neg hlength⟩

end Uuid

end Clearance
