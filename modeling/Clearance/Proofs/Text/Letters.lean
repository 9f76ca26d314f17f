import Clearance.Text.Matching
import Mathlib.Data.List.Forall2

/-!
# The case of letters

Texts are compared in lower case, and words of a stored rule may be written with capitals.
This file says what both amount to without mentioning lower case: two characters come out
alike when they are the same letter (`Clearance.Text.SameLetter`), which only the ASCII
letters are in two forms, and two texts when they are spelled alike
(`Clearance.Text.SpelledAlike`), character by character.

So a text contains, begins with or ends with a value in lower case exactly when a part, a
beginning or an end of it is spelled like the value.
-/

namespace Clearance.Text

/-! ### Characters -/

/-- Two characters that are the **same letter**: equal, or the capital and the small form of
one ASCII letter. -/
def SameLetter (c d : Char) : Prop :=
  c = d ∨ ∃ place < 26, (c.toNat = 65 + place ∧ d.toNat = 97 + place) ∨
    (c.toNat = 97 + place ∧ d.toNat = 65 + place)

theorem toNat_toLower (c : Char) :
    c.toLower.toNat = if 65 ≤ c.toNat ∧ c.toNat ≤ 90 then c.toNat + 32 else c.toNat := by
  have hcapital : (c.val ≥ 'A'.val ∧ c.val ≤ 'Z'.val) ↔ 65 ≤ c.toNat ∧ c.toNat ≤ 90 := Iff.rfl
  split
  · next h =>
    have hsmall : c.toLower.toNat = (c.val + ('a'.val - 'A'.val)).toNat :=
      congrArg Char.toNat (dif_pos (hcapital.mpr h))
    have hle : c.val.toNat ≤ 90 := h.2
    rw [hsmall, UInt32.toNat_add]
    exact Nat.mod_eq_of_lt (by change c.val.toNat + 32 < 2 ^ 32; omega)
  · next h => exact congrArg Char.toNat (dif_neg fun hcase => h (hcapital.mp hcase))

/-- **Lower case** tells apart what is not the same letter, and nothing else. -/
theorem toLower_eq_iff {c d : Char} : c.toLower = d.toLower ↔ SameLetter c d := by
  rw [← Char.toNat_inj, toNat_toLower, toNat_toLower, SameLetter, ← Char.toNat_inj]
  constructor
  · intro h
    by_cases heq : c.toNat = d.toNat
    · exact .inl heq
    · -- one of the two is a capital
      split at h
      · exact .inr ⟨c.toNat - 65, by omega, .inl (by split at h <;> omega)⟩
      · exact .inr ⟨d.toNat - 65, by split at h <;> omega, .inr (by split at h <;> omega)⟩
  · rintro (heq | ⟨place, hplace, ⟨hc, hd⟩ | ⟨hc, hd⟩⟩)
    · rw [heq]
    · rw [if_pos (by omega), if_neg (by omega)]
      omega
    · rw [if_neg (by omega), if_pos (by omega)]
      omega

/-! ### Texts -/

/-- Two lists of characters that are **spelled alike**, letter by letter. -/
def SpelledAlike (cs ds : List Char) : Prop :=
  List.Forall₂ SameLetter cs ds

theorem map_toLower_eq_iff {cs ds : List Char} :
    cs.map Char.toLower = ds.map Char.toLower ↔ SpelledAlike cs ds := by
  rw [SpelledAlike, ← List.forall₂_eq_eq_eq, List.forall₂_map_left_iff, List.forall₂_map_right_iff]
  simp only [toLower_eq_iff]

theorem occursIn_iff {part text : List Char} : occursIn part text = true ↔ part <:+: text := by
  induction text with
  | nil => simp [occursIn]
  | cons c rest ih =>
    rw [occursIn, Bool.or_eq_true, List.isPrefixOf_iff_prefix, ih, List.infix_cons_iff]

/-! ### Parts of texts -/

/-- A text **contains** a value: a part of it is spelled like the value. -/
def Contains (text value : String) : Prop :=
  ∃ part, part <:+: text.toList ∧ SpelledAlike part value.toList

/-- A text **begins with** a value. -/
def BeginsWith (text value : String) : Prop :=
  ∃ part, part <+: text.toList ∧ SpelledAlike part value.toList

/-- A text **ends with** a value. -/
def EndsWith (text value : String) : Prop :=
  ∃ part, part <:+ text.toList ∧ SpelledAlike part value.toList

variable {text value : String}

theorem occursIn_folded_iff :
    occursIn (folded value) (folded text) = true ↔ Contains text value := by
  rw [occursIn_iff, folded, folded, List.infix_map_iff]
  exact exists_congr fun part => and_congr_right fun _ => eq_comm.trans map_toLower_eq_iff

theorem isPrefixOf_folded_iff :
    (folded value).isPrefixOf (folded text) = true ↔ BeginsWith text value := by
  rw [List.isPrefixOf_iff_prefix, folded, folded, List.prefix_map_iff]
  exact exists_congr fun part => and_congr_right fun _ => eq_comm.trans map_toLower_eq_iff

theorem isSuffixOf_folded_iff :
    (folded value).isSuffixOf (folded text) = true ↔ EndsWith text value := by
  rw [List.isSuffixOf_iff_suffix, folded, folded, List.suffix_map_iff]
  exact exists_congr fun part => and_congr_right fun _ => eq_comm.trans map_toLower_eq_iff

end Clearance.Text
