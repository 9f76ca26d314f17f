/-!
# Sorted texts

Texts in **ascending order**, character by character in the order of their code
points. Where the texts stand for a set, each is kept once.
-/

namespace Clearance.Text

/-- A text put into an ascending list, before those that are not smaller. -/
def insertSorted (text : String) : List String → List String
  | [] => [text]
  | other :: rest => if other < text then other :: insertSorted text rest else text :: other :: rest

/-- The texts of a list in ascending order. -/
def sorted (texts : List String) : List String :=
  texts.foldr insertSorted []

/-- A text put into an ascending list, unless it is there. -/
def insertOnce (text : String) : List String → List String
  | [] => [text]
  | other :: rest =>
    if other < text then other :: insertOnce text rest
    else if other = text then other :: rest
    else text :: other :: rest

/-- The **set** of the texts in a list: ascending, each once. -/
def setOf (texts : List String) : List String :=
  texts.foldr insertOnce []

/-- Inserting adds the text and keeps the others. -/
theorem perm_insertSorted (text : String) (texts : List String) :
    (insertSorted text texts).Perm (text :: texts) := by
  induction texts with
  | nil => exact .refl _
  | cons other rest ih =>
    unfold insertSorted
    split
    · exact (ih.cons other).trans (.swap text other rest)
    · exact .refl _

/-- Sorting keeps the texts. -/
theorem perm_sorted (texts : List String) : (sorted texts).Perm texts := by
  induction texts with
  | nil => exact .nil
  | cons text rest ih => exact (perm_insertSorted text (sorted rest)).trans (ih.cons text)

theorem pairwise_insertSorted {text : String} {texts : List String}
    (h : texts.Pairwise (· ≤ ·)) : (insertSorted text texts).Pairwise (· ≤ ·) := by
  induction texts with
  | nil => exact List.pairwise_singleton ..
  | cons other rest ih =>
    obtain ⟨hother, hrest⟩ := List.pairwise_cons.mp h
    unfold insertSorted
    split
    · next hlt =>
      refine List.pairwise_cons.mpr ⟨fun third hthird => ?_, ih hrest⟩
      rcases List.mem_cons.mp ((perm_insertSorted text rest).mem_iff.mp hthird) with rfl | hthird
      · exact String.not_lt.mp fun hgt => String.lt_asymm hlt hgt
      · exact hother third hthird
    · next hnot =>
      have hle : text ≤ other := String.not_lt.mp hnot
      refine List.pairwise_cons.mpr ⟨fun third hthird => ?_, h⟩
      rcases List.mem_cons.mp hthird with rfl | hthird
      · exact hle
      · exact String.le_trans hle (hother third hthird)

/-- Sorting puts texts in ascending order. -/
theorem pairwise_sorted (texts : List String) : (sorted texts).Pairwise (· ≤ ·) := by
  induction texts with
  | nil => exact .nil
  | cons text rest ih => exact pairwise_insertSorted ih

/-- **The order in which texts are given does not matter.** -/
theorem sorted_eq_of_perm {texts others : List String} (h : texts.Perm others) :
    sorted texts = sorted others := by
  refine List.Perm.eq_of_pairwise (fun _ _ _ _ hle hge => String.le_antisymm hle hge)
    (pairwise_sorted texts) (pairwise_sorted others) ?_
  exact (perm_sorted texts).trans (h.trans (perm_sorted others).symm)

/-- Inserting adds one text and keeps the others. -/
theorem mem_insertOnce {text other : String} {texts : List String} :
    other ∈ insertOnce text texts ↔ other = text ∨ other ∈ texts := by
  induction texts with
  | nil => simp [insertOnce]
  | cons first rest ih =>
    unfold insertOnce
    split
    · simp only [List.mem_cons, ih]
      exact or_left_comm
    · split
      · rename_i h
        simp [h]
      · simp

/-- A set has the texts of the list it was made of. -/
@[simp] theorem mem_setOf {text : String} {texts : List String} :
    text ∈ setOf texts ↔ text ∈ texts := by
  induction texts with
  | nil => simp [setOf]
  | cons first rest ih =>
    have : setOf (first :: rest) = insertOnce first (setOf rest) := rfl
    rw [this, mem_insertOnce, ih, List.mem_cons]

end Clearance.Text
