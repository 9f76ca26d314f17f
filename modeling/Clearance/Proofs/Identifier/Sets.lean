import Clearance.Identifier.Basic
import Mathlib.Data.List.Sort

/-!
# Sets of identifiers

Sets of identifiers are kept as lists in ascending order (`Clearance.Uuid.pairwise_setOf`), so
that there is one list for every set (`Clearance.Uuid.eq_of_pairwise`).
-/

namespace Clearance.Uuid

variable {u : Uuid} {ids ids' : List Uuid}

theorem pairwise_insert (h : ids.Pairwise (·.number < ·.number)) :
    (insert u ids).Pairwise (·.number < ·.number) := by
  induction ids with
  | nil => exact List.pairwise_singleton ..
  | cons v rest ih =>
    obtain ⟨hfirst, hrest⟩ := List.pairwise_cons.mp h
    rw [insert]
    split
    · next hlt =>
      refine List.pairwise_cons.mpr ⟨?_, h⟩
      exact List.forall_mem_cons.mpr ⟨hlt, fun w hw => hlt.trans (hfirst w hw)⟩
    split
    · exact h
    · next hle hne =>
      refine List.pairwise_cons.mpr ⟨fun w hw => ?_, ih hrest⟩
      rcases mem_insert.mp hw with rfl | hw
      · omega
      · exact hfirst w hw

/-- A set is in ascending order. -/
theorem pairwise_setOf (ids : List Uuid) : (setOf ids).Pairwise (·.number < ·.number) := by
  induction ids with
  | nil => exact .nil
  | cons u rest ih => exact pairwise_insert ih

/-- There is one list for every set. -/
theorem eq_of_pairwise (h : ids.Pairwise (·.number < ·.number))
    (h' : ids'.Pairwise (·.number < ·.number)) (hmem : ∀ u, u ∈ ids ↔ u ∈ ids') : ids = ids' := by
  have hirrefl : Std.Irrefl fun u v : Uuid => u.number < v.number :=
    ⟨fun _ => Nat.lt_irrefl _⟩
  have hasymm : Std.Asymm fun u v : Uuid => u.number < v.number :=
    ⟨fun _ _ => Nat.lt_asymm⟩
  exact h.eq_of_mem_iff h' (by simpa using hmem)

/-- **Lists with the same elements are the same set.** -/
theorem setOf_eq_setOf_iff : setOf ids = setOf ids' ↔ ∀ u, u ∈ ids ↔ u ∈ ids' := by
  constructor
  · intro h u
    rw [← mem_setOf, h, mem_setOf]
  · intro h
    exact eq_of_pairwise (pairwise_setOf ids) (pairwise_setOf ids') (by simpa using h)

end Clearance.Uuid
