import Clearance.Number.Binary64
import Clearance.Proofs.Identifier.Text
import Mathlib.Data.Nat.Digits.Defs

/-!
# The digits of identifiers

An identifier is written with its thirty-two hexadecimal digits in five groups
(`Clearance.Uuid.isWritten_text`), and the order of the texts, character by character, is the
order of the numbers (`Clearance.Uuid.text_lt_text_iff`). Three things could go wrong there.

* The first place where two numbers differ might not outweigh the places that follow. It does,
  because as many digits are written for every number.
* The characters of the digits might not be in the order of the digits, as the letters are
  not next to the numerals.
* A hyphen might be compared with a digit. It never is, as hyphens stand at the same places in
  every text, so they never decide (`Clearance.Uuid.grouped_lt_grouped_iff`).
-/

namespace Clearance

namespace Text

/-! ### Digits and numbers -/

/-- Hexadecimal digits that **stand for a number**, the most significant first. -/
structure AreDigitsOf (digits : List Nat) (n : Nat) : Prop where
  /-- Every digit is below sixteen. -/
  lt : ∀ digit ∈ digits, digit < 16
  /-- Every digit counts sixteen times what the next one does. -/
  value : Nat.ofDigits 16 digits.reverse = n

variable {digits : List Nat} {m n digit width : Nat}

/-- With one more digit in front, which outweighs the others. -/
theorem areDigitsOf_cons_iff :
    AreDigitsOf (digit :: digits) n ↔
      digit < 16 ∧ ∃ rest, AreDigitsOf digits rest ∧ n = 16 ^ digits.length * digit + rest := by
  constructor
  · rintro ⟨hlt, hvalue⟩
    obtain ⟨hdigit, hdigits⟩ := List.forall_mem_cons.mp hlt
    rw [Nat.ofDigits_reverse_cons, Nat.add_comm] at hvalue
    exact ⟨hdigit, _, ⟨hdigits, rfl⟩, hvalue.symm⟩
  · rintro ⟨hdigit, rest, ⟨hdigits, rfl⟩, rfl⟩
    exact ⟨List.forall_mem_cons.mpr ⟨hdigit, hdigits⟩,
      (Nat.ofDigits_reverse_cons _ _).trans (Nat.add_comm _ _)⟩

/-- With one more digit at the end, which counts once. -/
theorem AreDigitsOf.concat (h : AreDigitsOf digits n) (hdigit : digit < 16) :
    AreDigitsOf (digits ++ [digit]) (16 * n + digit) where
  lt := List.forall_mem_append.mpr ⟨h.lt, List.forall_mem_singleton.mpr hdigit⟩
  value := by
    rw [List.reverse_append, List.reverse_singleton, List.singleton_append, Nat.ofDigits_cons,
      h.value, Nat.add_comm]

theorem hexDigit_eq_digitChar (h : digit < 16) : hexDigit digit = Nat.digitChar digit := by
  have hall : ∀ digit < 16, hexDigit digit = Nat.digitChar digit := by decide
  exact hall digit h

/-- **What is written for a number** are the characters of its digits. -/
theorem exists_hexDigits (h : n < 16 ^ width) :
    ∃ digits, digits.length = width ∧ AreDigitsOf digits n ∧
      hexDigits width n = digits.map Nat.digitChar := by
  induction width generalizing n with
  | zero =>
    obtain rfl : n = 0 := by omega
    exact ⟨[], rfl, ⟨by simp, rfl⟩, rfl⟩
  | succ width ih =>
    rw [Nat.pow_succ] at h
    have hlast : n % 16 < 16 := Nat.mod_lt n (by decide)
    obtain ⟨digits, hlength, hdigits, hwritten⟩ := ih (n := n / 16) (by omega)
    have hconcat := hdigits.concat hlast
    rw [Nat.div_add_mod] at hconcat
    refine ⟨_, by rw [List.length_append, hlength, List.length_singleton], hconcat, ?_⟩
    rw [hexDigits, hwritten, hexDigit_eq_digitChar hlast, List.map_append, List.map_singleton]

/-! ### The order of digits -/

/-- Of texts in two parts, the first ones equally long, the second parts decide only when the
first are equal. -/
theorem append_lt_append_iff {cs ds cs' ds' : List Char} (h : cs.length = ds.length) :
    cs ++ cs' < ds ++ ds' ↔ cs < ds ∨ cs = ds ∧ cs' < ds' := by
  induction cs generalizing ds with
  | nil =>
    obtain rfl := List.eq_nil_of_length_eq_zero h.symm
    simp
  | cons c cs ih =>
    cases ds with
    | nil => cases h
    | cons d ds =>
      simp only [List.cons_append, List.cons_lt_cons_iff, ih (Nat.succ.inj h), List.cons.injEq]
      tauto

theorem hexDigit_lt_hexDigit_iff (hm : m < 16) (hn : n < 16) :
    hexDigit m < hexDigit n ↔ m < n := by
  have hall : ∀ m < 16, ∀ n < 16, (hexDigit m < hexDigit n ↔ m < n) := by decide
  exact hall m hm n hn

/-- **Written digits are in the order of the numbers.** -/
theorem hexDigits_lt_hexDigits_iff (hm : m < 16 ^ width) (hn : n < 16 ^ width) :
    hexDigits width m < hexDigits width n ↔ m < n := by
  induction width generalizing m n with
  | zero =>
    simp only [hexDigits, List.lt_irrefl, false_iff]
    omega
  | succ width ih =>
    rw [Nat.pow_succ] at hm hn
    have hhigh := ih (m := m / 16) (n := n / 16) (by omega) (by omega)
    have hlow := hexDigit_lt_hexDigit_iff (Nat.mod_lt m (by decide)) (Nat.mod_lt n (by decide))
    have hsame : hexDigits width (m / 16) = hexDigits width (n / 16) ↔ m / 16 = n / 16 :=
      ⟨hexDigits_inj (by omega) (by omega), congrArg _⟩
    rw [hexDigits, hexDigits, append_lt_append_iff (by simp), List.cons_lt_cons_iff, hhigh, hlow,
      hsame]
    simp only [List.lt_irrefl, and_false, or_false]
    omega

end Text

namespace Uuid

open Text

/-! ### The order of written forms -/

theorem grouped_lt_grouped_iff {cs ds : List Char} (h : cs.length = ds.length) :
    grouped cs < grouped ds ↔ cs < ds := by
  conv_rhs => rw [← append_groups cs, ← append_groups ds]
  -- both sides compare the groups from the left; a hyphen in front of a group equals the other
  simp [grouped, append_lt_append_iff, h]

/-- **Texts are in the order of the identifiers** that they are written for. -/
theorem text_lt_text_iff {u v : Uuid} : u.text < v.text ↔ u.number < v.number := by
  have hu : u.number < 16 ^ 32 := u.number_lt
  have hv : v.number < 16 ^ 32 := v.number_lt
  rw [String.lt_iff, text, text, String.toList_ofList, String.toList_ofList, chars, chars,
    grouped_lt_grouped_iff (by simp), hexDigits_lt_hexDigits_iff hu hv]

/-! ### The written form -/

/-- A text in which an identifier is **written**: its thirty-two digits, the most significant
first and letters small, in groups of eight, four, four, four and twelve, with hyphens between
the groups. -/
def IsWritten (u : Uuid) (text : String) : Prop :=
  ∃ digits, AreDigitsOf digits u.number ∧ ∃ a b c d e : List Char,
    digits.map Nat.digitChar = a ++ b ++ c ++ d ++ e ∧
      a.length = 8 ∧ b.length = 4 ∧ c.length = 4 ∧ d.length = 4 ∧ e.length = 12 ∧
      text.toList = a ++ '-' :: b ++ '-' :: c ++ '-' :: d ++ '-' :: e

theorem isWritten_text (u : Uuid) : u.IsWritten u.text := by
  have hlt : u.number < 16 ^ 32 := u.number_lt
  obtain ⟨digits, -, hdigits, hwritten⟩ := exists_hexDigits hlt
  refine ⟨digits, hdigits, _, _, _, _, _, hwritten.symm.trans (append_groups _).symm, ?_, ?_, ?_,
    ?_, ?_, String.toList_ofList⟩
  all_goals simp

end Uuid

end Clearance
