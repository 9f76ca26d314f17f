import Clearance.Proofs.Identifier.Spelling
import Mathlib.Data.List.TakeWhile

/-!
# The grammar of identifiers

What `Clearance.Uuid.Spells` says of a text holds of the usual spellings of an identifier, but a
reader lets more pass. This file says without the reader what that is. A text *loosely spells* an
identifier (`Clearance.Uuid.LooselySpells`) if what is left of it, when two words have been taken
out, braces stripped and hyphens left out, are thirty-two characters that are a hexadecimal
literal of its number. A literal is a run of digits, of any script, with single underscores
between them; in front there may be a plus sign and a mark of the base, and around it white space
(`Clearance.Text.IsHexLiteral`).

The reader and the grammar agree (`Clearance.Uuid.read?_eq_some_iff`), step by step. The reader
cuts where it can first, and a text can be cut in one way only: words are taken out from the
left, what is stripped ends at the first character that is none, and no white space, sign or mark
of the base can be taken for digits.
-/

namespace Clearance

namespace Text

/-! ### Taking words out -/

/-- What is left of a text **without a word**: from the left, the word is taken out wherever it
begins, and any other character stays. -/
inductive IsWithout (word : List Char) : List Char → List Char → Prop
  /-- Nothing is left of nothing. -/
  | nil : IsWithout word [] []
  /-- The word is taken out. -/
  | word {cs left : List Char} (h : IsWithout word cs left) : IsWithout word (word ++ cs) left
  /-- A character stays at which the word does not begin. -/
  | char {c : Char} {cs left : List Char} (hother : ¬ word <+: c :: cs)
      (h : IsWithout word cs left) : IsWithout word (c :: cs) (c :: left)

variable {word cs ds left : List Char} {c d : Char} {p : Char → Bool}

theorem isWithout_without (hword : word ≠ []) (cs : List Char) :
    IsWithout word cs (without word 0 cs) := by
  induction hlength : cs.length using Nat.strong_induction_on generalizing cs with
  | _ length ih =>
    cases cs with
    | nil => exact .nil
    | cons c rest =>
      by_cases hbegins : word <+: c :: rest
      · obtain ⟨after, hafter⟩ := hbegins
        have hshorter : after.length < length := by
          rw [← hlength, ← hafter, List.length_append]
          have := List.length_pos_of_ne_nil hword
          omega
        rw [← hafter, without_word_append hword]
        exact .word (ih _ hshorter after rfl)
      · have hother : word.isPrefixOf (c :: rest) = false := by
          rwa [← Bool.not_eq_true, List.isPrefixOf_iff_prefix]
        rw [without_cons hother]
        exact .char hbegins (ih _ (by rw [← hlength, List.length_cons]; omega) rest rfl)

/-- **There is but one way** of taking a word out from the left. -/
theorem isWithout_iff (hword : word ≠ []) : IsWithout word cs left ↔ without word 0 cs = left := by
  constructor
  · intro h
    induction h with
    | nil => rfl
    | word _ ih => rw [without_word_append hword, ih]
    | char hother _ ih =>
      rw [without_cons (by rwa [← Bool.not_eq_true, List.isPrefixOf_iff_prefix]), ih]
  · rintro rfl
    exact isWithout_without hword cs

/-! ### Stripping -/

/-- What is left of a text when some characters are **stripped** from both its ends. -/
def IsStripped (p : Char → Bool) (cs left : List Char) : Prop :=
  ∃ before after, cs = before ++ left ++ after ∧
    (∀ c ∈ before, p c = true) ∧ (∀ c ∈ after, p c = true) ∧
    (∀ c ∈ left.head?, p c = false) ∧ ∀ c ∈ left.getLast?, p c = false

/-- What is dropped are the characters up to one that is none of them. -/
theorem dropWhile_append_eq (hbefore : ∀ c ∈ ds, p c = true) (h : ∀ c ∈ cs.head?, p c = false) :
    (ds ++ cs).dropWhile p = cs := by
  rw [List.dropWhile_append_of_pos hbefore]
  cases cs with
  | nil => rfl
  | cons c rest => exact List.dropWhile_cons_of_neg (by simp [h c rfl])

theorem head?_dropWhile_eq_false : ∀ c ∈ (cs.dropWhile p).head?, p c = false := by
  intro c hc
  have hhead := List.head?_dropWhile_not p cs
  rwa [Option.mem_def.mp hc] at hhead

/-- **Trimming strips.** -/
theorem isStripped_iff : IsStripped p cs left ↔ trim p cs = left := by
  constructor
  · rintro ⟨before, after, rfl, hbefore, hafter, hhead, hlast⟩
    have hend : (left ++ after).reverse.dropWhile p = left.reverse := by
      rw [List.reverse_append]
      exact dropWhile_append_eq (fun c hc => hafter c (List.mem_reverse.mp hc))
        (by rwa [List.head?_reverse])
    rw [trim, List.append_assoc]
    cases left with
    | nil =>
      -- nothing is left after the first time
      rw [List.dropWhile_append_of_pos hbefore, List.nil_append,
        List.dropWhile_eq_nil_iff.mpr hafter]
      rfl
    | cons c rest =>
      rw [dropWhile_append_eq hbefore (by simpa using hhead), hend, List.reverse_reverse]
  · rintro rfl
    have hstart : cs.takeWhile p ++ cs.dropWhile p = cs := List.takeWhile_append_dropWhile
    have hend : (cs.dropWhile p).reverse.takeWhile p ++ (cs.dropWhile p).reverse.dropWhile p =
        (cs.dropWhile p).reverse := List.takeWhile_append_dropWhile
    have hmiddle : cs.dropWhile p =
        trim p cs ++ ((cs.dropWhile p).reverse.takeWhile p).reverse := by
      rw [trim, ← List.reverse_append, hend, List.reverse_reverse]
    refine ⟨cs.takeWhile p, ((cs.dropWhile p).reverse.takeWhile p).reverse, ?_,
      fun c hc => List.mem_takeWhile_imp hc,
      fun c hc => List.mem_takeWhile_imp (List.mem_reverse.mp hc), fun c hc => ?_, ?_⟩
    · rw [List.append_assoc, ← hmiddle, hstart]
    · have hfirst : ∀ c ∈ (cs.dropWhile p).head?, p c = false := head?_dropWhile_eq_false
      refine hfirst c ?_
      rw [hmiddle, List.head?_append, Option.mem_def.mp hc]
      rfl
    · rw [trim, List.getLast?_reverse]
      exact head?_dropWhile_eq_false

/-! ### Literals -/

variable {n value : Nat} {digits : List Nat} {mayBreak : Bool}

/-- What a character of a literal **stands for**: in ASCII for itself; outside, white space for a
blank and a decimal digit of any script for the digit. -/
inductive StandsFor : Char → Char → Prop
  /-- In ASCII a character stands for itself. -/
  | ascii {c : Char} (hc : c.toNat < 127) : StandsFor c c
  /-- White space stands for a blank. -/
  | white {c : Char} (hc : 127 ≤ c.toNat) (hwhite : isWhite c = true) : StandsFor c ' '
  /-- A decimal digit stands for the digit. -/
  | digit {c : Char} {digit : Nat} (hc : 127 ≤ c.toNat) (hwhite : isWhite c = false)
      (hdigit : digit? c = some digit) : StandsFor c (Char.ofNat (48 + digit))

theorem literalChar_eq_some_iff : literalChar c = some d ↔ StandsFor c d := by
  rw [literalChar]
  constructor
  · intro h
    split at h
    · next hc =>
      obtain rfl := Option.some.inj h
      exact .ascii hc
    · next hc =>
      split at h
      · next hwhite =>
        obtain rfl := Option.some.inj h
        exact .white (Nat.not_lt.mp hc) hwhite
      · next hwhite =>
        obtain ⟨digit, hdigit, rfl⟩ := Option.map_eq_some_iff.mp h
        exact .digit (Nat.not_lt.mp hc) (by simpa using hwhite) hdigit
  · intro h
    cases h with
    | ascii hc => rw [if_pos hc]
    | white hc hwhite => rw [if_neg (Nat.not_lt.mpr hc), if_pos hwhite]
    | digit hc hwhite hdigit =>
      rw [if_neg (Nat.not_lt.mpr hc), if_neg (by simp [hwhite]), hdigit, Option.map_some]

theorem mapM_literalChar_eq_some_iff :
    cs.mapM literalChar = some ds ↔ List.Forall₂ StandsFor cs ds := by
  induction cs generalizing ds with
  | nil => simp [eq_comm]
  | cons c rest ih =>
    rw [List.mapM_cons, List.forall₂_cons_left_iff]
    simp only [Option.bind_eq_bind, Option.bind_eq_some_iff, literalChar_eq_some_iff, ih]
    simp [eq_comm]

/-- A character is a **hexadecimal digit**, in either case. -/
def IsHexDigit (c : Char) (digit : Nat) : Prop :=
  digit < 16 ∧ SameLetter c (Nat.digitChar digit)

theorem digitIn?_eq_some_iff {digit : Nat} : digitIn? 16 c = some digit ↔ IsHexDigit c digit := by
  refine ⟨fun h => ⟨lt_of_digitIn? h, ?_⟩, fun h => digitIn?_eq_some h.1 h.2⟩
  have hchar := toNat_digitChar (lt_of_digitIn? h)
  rw [digitIn?_eq] at h
  rw [SameLetter, ← Char.toNat_inj, hchar]
  by_cases hcapital : 65 ≤ c.toNat ∧ c.toNat ≤ 70
  · exact .inr ⟨c.toNat - 65, by omega, .inl ⟨by omega, by grind⟩⟩
  · exact .inl (by grind)

/-- A **run of digits**, with an underscore between two of them or none. -/
inductive DigitRun : List Char → List Nat → Prop
  /-- A single digit. -/
  | last {c : Char} {digit : Nat} (hdigit : IsHexDigit c digit) : DigitRun [c] [digit]
  /-- A digit before others. -/
  | next {c : Char} {digit : Nat} {cs : List Char} {digits : List Nat}
      (hdigit : IsHexDigit c digit) (h : DigitRun cs digits) :
      DigitRun (c :: cs) (digit :: digits)
  /-- A digit and an underscore before others. -/
  | broken {c : Char} {digit : Nat} {cs : List Char} {digits : List Nat}
      (hdigit : IsHexDigit c digit) (h : DigitRun cs digits) :
      DigitRun (c :: '_' :: cs) (digit :: digits)

/-- A run behind a **mark of the base**, which may have an underscore behind it, or behind none. -/
inductive MarkedRun : List Char → List Nat → Prop
  /-- There is no mark. -/
  | plain {cs : List Char} {digits : List Nat} (h : DigitRun cs digits) : MarkedRun cs digits
  /-- There is a mark. -/
  | marked {x : Char} {cs : List Char} {digits : List Nat} (hx : x = 'x' ∨ x = 'X')
      (h : DigitRun cs digits) : MarkedRun ('0' :: x :: cs) digits
  /-- There is a mark with an underscore behind it. -/
  | broken {x : Char} {cs : List Char} {digits : List Nat} (hx : x = 'x' ∨ x = 'X')
      (h : DigitRun cs digits) : MarkedRun ('0' :: x :: '_' :: cs) digits

/-- A run behind a **plus sign** or none. -/
inductive SignedRun : List Char → List Nat → Prop
  /-- There is no sign. -/
  | plain {cs : List Char} {digits : List Nat} (h : MarkedRun cs digits) : SignedRun cs digits
  /-- There is a sign. -/
  | plus {cs : List Char} {digits : List Nat} (h : MarkedRun cs digits) :
      SignedRun ('+' :: cs) digits

/-- A text is a **hexadecimal literal** of a number: of what its characters stand for, stripped of
white space, the digits stand for the number. -/
def IsHexLiteral (cs : List Char) (n : Nat) : Prop :=
  ∃ plain run digits, List.Forall₂ StandsFor cs plain ∧ IsStripped isWhite plain run ∧
    SignedRun run digits ∧ AreDigitsOf digits n

/-! ### Reading literals -/

/-- None of the other characters that a literal may hold is a digit. -/
theorem ne_of_isHexDigit {digit : Nat} (h : IsHexDigit c digit) :
    c ≠ '_' ∧ c ≠ '+' ∧ c ≠ 'x' ∧ c ≠ 'X' := by
  have hdigit := digitIn?_eq_some_iff.mpr h
  refine ⟨?_, ?_, ?_, ?_⟩ <;> rintro rfl <;> cases hdigit

/-- A digit counts sixteen times what comes behind it. -/
theorem readDigitRun_digit {digit : Nat} (h : IsHexDigit c digit) :
    readDigitRun 16 value mayBreak (c :: cs) = readDigitRun 16 (value * 16 + digit) true cs := by
  rw [readDigitRun, digitIn?_eq_some_iff.mpr h]
  exact (ne_of_isHexDigit h).1

/-- A run is read as the number that its digits stand for, after what has been read. -/
theorem readDigitRun_of_digitRun (h : DigitRun cs digits) (hdigits : AreDigitsOf digits n) :
    readDigitRun 16 value mayBreak cs = some (16 ^ digits.length * value + n) := by
  induction h generalizing value mayBreak n with
  | last hdigit =>
    obtain ⟨-, m, hnone, rfl⟩ := areDigitsOf_cons_iff.mp hdigits
    obtain rfl : 0 = m := hnone.value
    rw [readDigitRun_digit hdigit, readDigitRun]
    simp [Nat.mul_comm]
  | next hdigit _ ih =>
    obtain ⟨-, m, hrest, rfl⟩ := areDigitsOf_cons_iff.mp hdigits
    rw [readDigitRun_digit hdigit, ih hrest, List.length_cons, Nat.pow_succ]
    congr 1
    ring
  | broken hdigit _ ih =>
    obtain ⟨-, m, hrest, rfl⟩ := areDigitsOf_cons_iff.mp hdigits
    rw [readDigitRun_digit hdigit, readDigitRun, if_pos rfl, ih hrest, List.length_cons,
      Nat.pow_succ]
    congr 1
    ring

/-- What is read is a run. It may be over, or go on behind an underscore, if one may come next. -/
theorem digitRun_of_readDigitRun (h : readDigitRun 16 value mayBreak cs = some n) :
    (mayBreak = true ∧ cs = [] ∧ n = value) ∨
      ∃ rest digits m, (cs = rest ∨ mayBreak = true ∧ cs = '_' :: rest) ∧ DigitRun rest digits ∧
        AreDigitsOf digits m ∧ n = 16 ^ digits.length * value + m := by
  induction cs generalizing value mayBreak with
  | nil =>
    rw [readDigitRun] at h
    split at h
    · next hbreak => exact .inl ⟨hbreak, rfl, (Option.some.inj h).symm⟩
    · cases h
  | cons c cs ih =>
    refine .inr ?_
    by_cases hc : c = '_'
    · subst hc
      rw [readDigitRun] at h
      split at h
      · next hbreak =>
        obtain ⟨⟨⟩, -⟩ | ⟨rest, digits, m, rfl | ⟨⟨⟩, -⟩, hrun, hdigits, rfl⟩ := ih h
        exact ⟨cs, digits, m, .inr ⟨hbreak, rfl⟩, hrun, hdigits, rfl⟩
      · cases h
    · rw [readDigitRun] at h
      · split at h
        · next digit hdigit =>
          have hdigit := digitIn?_eq_some_iff.mp hdigit
          have hlast : AreDigitsOf [] 0 := ⟨by simp, rfl⟩
          rcases ih h with ⟨-, rfl, rfl⟩ | ⟨rest, digits, m, hrest, hrun, hdigits, rfl⟩
          · refine ⟨_, [digit], digit, .inl rfl, .last hdigit, ?_, by simp [Nat.mul_comm]⟩
            exact areDigitsOf_cons_iff.mpr ⟨hdigit.1, 0, hlast, by simp⟩
          · refine ⟨_, digit :: digits, 16 ^ digits.length * digit + m, .inl rfl, ?_,
              areDigitsOf_cons_iff.mpr ⟨hdigit.1, m, hdigits, rfl⟩, ?_⟩
            · rcases hrest with rfl | ⟨-, rfl⟩
              · exact .next hdigit hrun
              · exact .broken hdigit hrun
            · rw [List.length_cons, Nat.pow_succ]
              ring
        · cases h
      · exact hc

theorem readDigitRun_eq_some_iff :
    readDigitRun 16 0 false cs = some n ↔ ∃ digits, DigitRun cs digits ∧ AreDigitsOf digits n := by
  constructor
  · intro h
    obtain ⟨⟨⟩, -⟩ | ⟨rest, digits, m, rfl | ⟨⟨⟩, -⟩, hrun, hdigits, rfl⟩ :=
      digitRun_of_readDigitRun h
    exact ⟨digits, hrun, by simpa using hdigits⟩
  · rintro ⟨digits, hrun, hdigits⟩
    rw [readDigitRun_of_digitRun hrun hdigits, Nat.mul_zero, Nat.zero_add]

/-- A run begins with a digit. -/
theorem isHexDigit_of_digitRun (h : DigitRun (c :: cs) digits) : ∃ digit, IsHexDigit c digit := by
  cases h with
  | last hdigit | next hdigit _ | broken hdigit _ => exact ⟨_, hdigit⟩

theorem not_digitRun_underscore : ¬ DigitRun ('_' :: cs) digits := fun h => by
  obtain ⟨digit, hdigit⟩ := isHexDigit_of_digitRun h
  exact (ne_of_isHexDigit hdigit).1 rfl

/-- No run begins like a mark of the base, -/
theorem afterBaseMark_of_digitRun (h : DigitRun cs digits) : afterBaseMark cs = cs := by
  have hsecond : ∀ first x rest, cs = first :: x :: rest → x ≠ 'x' ∧ x ≠ 'X' := by
    rintro first x rest rfl
    cases h with
    | next _ hrest =>
      obtain ⟨digit, hdigit⟩ := isHexDigit_of_digitRun hrest
      exact (ne_of_isHexDigit hdigit).2.2
    | broken => decide
  unfold afterBaseMark
  split
  · exact absurd rfl (hsecond _ _ _ rfl).1
  · exact absurd rfl (hsecond _ _ _ rfl).2
  · exact absurd rfl (hsecond _ _ _ rfl).1
  · exact absurd rfl (hsecond _ _ _ rfl).2
  · rfl

theorem markedRun_iff : MarkedRun cs digits ↔ DigitRun (afterBaseMark cs) digits := by
  constructor
  · intro h
    cases h with
    | plain h => rwa [afterBaseMark_of_digitRun h]
    | @marked x cs digits hx h =>
      have hmark : afterBaseMark ('0' :: x :: cs) = cs := by
        unfold afterBaseMark
        rcases hx with rfl | rfl <;> split <;> simp_all [not_digitRun_underscore]
      rwa [hmark]
    | broken hx h => rcases hx with rfl | rfl <;> exact h
  · intro h
    unfold afterBaseMark at h
    split at h
    · exact .broken (.inl rfl) h
    · exact .broken (.inr rfl) h
    · exact .marked (.inl rfl) h
    · exact .marked (.inr rfl) h
    · exact .plain h

/-- nor does one with a mark begin with a sign. -/
theorem unsigned_of_markedRun (h : MarkedRun cs digits) : unsigned cs = cs := by
  have hfirst : ∀ rest, cs ≠ '+' :: rest := by
    rintro rest rfl
    cases h with
    | plain h =>
      obtain ⟨digit, hdigit⟩ := isHexDigit_of_digitRun h
      exact (ne_of_isHexDigit hdigit).2.1 rfl
  unfold unsigned
  split
  · exact absurd rfl (hfirst _)
  · rfl

theorem signedRun_iff : SignedRun cs digits ↔ MarkedRun (unsigned cs) digits := by
  constructor
  · intro h
    cases h with
    | plain h => rwa [unsigned_of_markedRun h]
    | plus h => exact h
  · intro h
    unfold unsigned at h
    split at h
    · exact .plus h
    · exact .plain h

/-- **What is read as a literal** is one. -/
theorem hexLiteral?_eq_some_iff : hexLiteral? cs = some n ↔ IsHexLiteral cs n := by
  simp only [hexLiteral?, Option.bind_eq_bind, Option.bind_eq_some_iff,
    mapM_literalChar_eq_some_iff, readDigitRun_eq_some_iff, ← markedRun_iff, ← signedRun_iff,
    IsHexLiteral, isStripped_iff]
  constructor
  · rintro ⟨plain, hplain, digits, hrun, hdigits⟩
    exact ⟨plain, _, digits, hplain, rfl, hrun, hdigits⟩
  · rintro ⟨plain, _, digits, hplain, rfl, hrun, hdigits⟩
    exact ⟨plain, hplain, digits, hrun, hdigits⟩

end Text

namespace Uuid

open Text

variable {u : Uuid} {text : String}

/-- A text **loosely spells** an identifier. Every `urn:` is taken out of it and then every `uuid:`,
braces are stripped from both ends, and hyphens are left out; then there are thirty-two characters,
a hexadecimal literal of the number of the identifier. -/
def LooselySpells (u : Uuid) (cs : List Char) : Prop :=
  ∃ unprefixed unnamed unbraced, IsWithout "urn:".toList cs unprefixed ∧
    IsWithout "uuid:".toList unprefixed unnamed ∧
    IsStripped (fun c => c == '\x7b' || c == '\x7d') unnamed unbraced ∧
    (unbraced.filter (· != '-')).length = 32 ∧
    IsHexLiteral (unbraced.filter (· != '-')) u.number

/-- **A text is read as the identifier that it loosely spells**, and as none if it spells none. -/
theorem read?_eq_some_iff : read? text = some u ↔ u.LooselySpells text.toList := by
  have hbare : u.LooselySpells text.toList ↔ (bare text.toList).length = 32 ∧
      hexLiteral? (bare text.toList) = some u.number := by
    have hurn : "urn:".toList ≠ [] := by decide
    have huuid : "uuid:".toList ≠ [] := by decide
    simp only [LooselySpells, isWithout_iff hurn, isWithout_iff huuid, isStripped_iff,
      ← hexLiteral?_eq_some_iff]
    constructor
    · rintro ⟨_, _, _, rfl, rfl, rfl, h⟩
      exact h
    · exact fun h => ⟨_, _, _, rfl, rfl, rfl, h⟩
  rw [hbare, read?, Outcome.toOption_eq_some_iff]
  rcases read_cases text with
    ⟨hlength, hread⟩ | ⟨-, hliteral, hread⟩ | ⟨hlength, v, hliteral, hread⟩
  · simp [hread, hlength]
  · simp [hread, hliteral]
  · rw [hread, hliteral, Except.ok.injEq, Option.some.injEq]
    exact ⟨fun h => ⟨hlength, congrArg number h⟩, fun h => ext_number h.2⟩

end Uuid

end Clearance
