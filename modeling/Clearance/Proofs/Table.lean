/-!
# Tables

What is kept under names is kept in lists of pairs, of which the first with a name counts. This
file says what is found in such a list when another pair stands in front of it, when only the
pairs with certain names are kept of it, and when no name comes twice.
-/

namespace Clearance.Table

variable {α β : Type} [DecidableEq α] [BEq α] [LawfulBEq α] {name other : α} {value : β}
  {entries : List (α × β)}

theorem lookup_cons : List.lookup other ((name, value) :: entries) =
    if other = name then some value else entries.lookup other := by
  rw [List.lookup_cons]
  by_cases h : other = name
  · rw [if_pos h, beq_iff_eq.mpr h]
  · rw [if_neg h, beq_eq_false_iff_ne.mpr h]

theorem lookup_eq_none_iff : entries.lookup name = none ↔ name ∉ entries.map Prod.fst := by
  induction entries with
  | nil => simp
  | cons entry rest ih =>
    obtain ⟨first, value⟩ := entry
    by_cases h : name = first
    · simp [h]
    · simpa [lookup_cons, h] using ih

/-- Leaving out other names changes nothing. -/
theorem lookup_filter (kept : α → Bool) :
    (entries.filter fun entry => kept entry.1).lookup name =
      if kept name then entries.lookup name else none := by
  induction entries with
  | nil => simp
  | cons entry rest ih =>
    obtain ⟨first, value⟩ := entry
    rw [List.filter_cons]
    by_cases h : name = first
    · subst h
      cases hkept : kept name <;> simp [ih, hkept]
    · cases hkept : kept first <;> simp [lookup_cons, ih, h]

/-- If no name comes twice, all that is in the table is found. -/
theorem mem_iff_lookup (h : (entries.map Prod.fst).Nodup) :
    (name, value) ∈ entries ↔ entries.lookup name = some value := by
  induction entries with
  | nil => simp
  | cons entry rest ih =>
    obtain ⟨first, found⟩ := entry
    obtain ⟨hfirst, hrest⟩ := List.nodup_cons.mp h
    rw [List.mem_cons, ih hrest, lookup_cons]
    by_cases hname : name = first
    · subst hname
      simp [lookup_eq_none_iff.mpr hfirst, eq_comm]
    · simp [hname]

end Clearance.Table
