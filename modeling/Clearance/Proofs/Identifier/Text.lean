import Clearance.Identifier.Basic

/-!
# The written form of identifiers

No two identifiers are written alike (`Clearance.Uuid.text_inj`), so a column that stores
the written form tells identifiers apart. Hyphens can be left out without loss, because no
digit is one, and the digits of a number tell the number.
-/

namespace Clearance

namespace Text

theorem hexDigit_inj {m n : Nat} (hm : m < 16) (hn : n < 16) (h : hexDigit m = hexDigit n) :
    m = n := by
  have hall : ∀ m < 16, ∀ n < 16, hexDigit m = hexDigit n → m = n := by decide
  exact hall m hm n hn h

theorem hexDigit_ne_hyphen {n : Nat} (hn : n < 16) : hexDigit n ≠ '-' := by
  have hall : ∀ n < 16, hexDigit n ≠ '-' := by decide
  exact hall n hn

/-- A number is told by its digits if there are enough of them. -/
theorem hexDigits_inj {width m n : Nat} (hm : m < 16 ^ width) (hn : n < 16 ^ width)
    (h : hexDigits width m = hexDigits width n) : m = n := by
  induction width generalizing m n with
  | zero => omega
  | succ width ih =>
    rw [hexDigits, hexDigits] at h
    obtain ⟨hhigh, hlow⟩ := List.append_inj h (by simp)
    rw [Nat.pow_succ] at hm hn
    have hdiv : m / 16 = n / 16 := ih (by omega) (by omega) hhigh
    have hmod : m % 16 = n % 16 :=
      hexDigit_inj (Nat.mod_lt _ (by decide)) (Nat.mod_lt _ (by decide))
        (List.singleton_inj.mp hlow)
    omega

theorem hyphen_not_mem_hexDigits (width n : Nat) : '-' ∉ hexDigits width n := by
  induction width generalizing n with
  | zero => simp [hexDigits]
  | succ width ih =>
    rw [hexDigits, List.mem_append, List.mem_singleton]
    rintro (h | h)
    · exact ih _ h
    · exact hexDigit_ne_hyphen (Nat.mod_lt _ (by decide)) h.symm

end Text

namespace Uuid

/-- A numeral stands for the **identifier with that number**, up to a multiple of `2 ^ 128`. -/
instance (n : Nat) : OfNat Uuid n where
  ofNat := ⟨n % 2 ^ 128, Nat.mod_lt n (Nat.two_pow_pos 128)⟩

/-- Side by side the groups of a written form are all its characters. -/
theorem append_groups (cs : List Char) :
    cs.take 8 ++ (cs.drop 8).take 4 ++ (cs.drop 12).take 4 ++ (cs.drop 16).take 4 ++ cs.drop 20 =
      cs := by
  have h12 : (cs.drop 8).drop 4 = cs.drop 12 := List.drop_drop ..
  have h16 : (cs.drop 12).drop 4 = cs.drop 16 := List.drop_drop ..
  have h20 : (cs.drop 16).drop 4 = cs.drop 20 := List.drop_drop ..
  simp only [List.append_assoc]
  rw [← h20, List.take_append_drop, ← h16, List.take_append_drop, ← h12, List.take_append_drop,
    List.take_append_drop]

/-- Without its hyphens a written form is its digits. -/
theorem filter_grouped (cs : List Char) :
    (grouped cs).filter (· != '-') = cs.filter (· != '-') := by
  rw [← congrArg (List.filter (· != '-')) (append_groups cs)]
  simp [grouped]

theorem filter_chars (u : Uuid) : u.chars.filter (· != '-') = Text.hexDigits 32 u.number := by
  rw [chars, filter_grouped, List.filter_eq_self]
  intro c hc
  rw [bne_iff_ne]
  rintro rfl
  exact Text.hyphen_not_mem_hexDigits _ _ hc

/-- **No two identifiers are written alike.** -/
theorem text_inj {u v : Uuid} : u.text = v.text ↔ u = v := by
  refine ⟨fun h => ?_, congrArg text⟩
  have hchars : u.chars = v.chars := String.ofList_injective h
  have hdigits := congrArg (List.filter (· != '-')) hchars
  rw [filter_chars, filter_chars] at hdigits
  exact ext_number (Text.hexDigits_inj u.number_lt v.number_lt hdigits)

end Uuid

end Clearance
