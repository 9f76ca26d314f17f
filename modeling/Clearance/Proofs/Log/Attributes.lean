import Clearance.Log.Line
import Clearance.Proofs.Outcome
import Clearance.Proofs.Table
import Mathlib.Data.List.Basic
import Mathlib.Data.List.Induction

/-!
# Attributes of log entries

The attributes of an entry keep their order. One that is set again keeps its place and loses its
value; a new one comes last. Here it is said what an attribute is after some other has been set
(`Clearance.Log.Entry.lookup_set`), and that one with the value it has already can be set without
any change (`Clearance.Log.Entry.set_eq_self`).

Which extra fields come out when attributes are set one after the other, some of them standard
and some more than once, is told without mention of the entry (`Clearance.Log.Entry.AreFieldsOf`): a
name has the value it was given last, and the place it was given first.
-/

namespace Clearance.Log.Entry

variable {name other : String} {datum : Datum} {attributes given : List (String × Datum)}

/-! ### One attribute is set -/

theorem lookup_setIn : (setIn attributes name datum).lookup other =
    if other = name then some datum else attributes.lookup other := by
  induction attributes with
  | nil => exact Table.lookup_cons
  | cons field rest ih =>
    obtain ⟨key, old⟩ := field
    rw [setIn]
    split
    · next hkey =>
      subst hkey
      rw [Table.lookup_cons, Table.lookup_cons]
      split <;> rfl
    · next hkey =>
      rw [Table.lookup_cons, ih, Table.lookup_cons]
      by_cases h : other = key
      · rw [if_pos h, if_neg (h ▸ hkey), if_pos h]
      · rw [if_neg h, if_neg h]

theorem setIn_eq_self (h : attributes.lookup name = some datum) :
    setIn attributes name datum = attributes := by
  induction attributes with
  | nil => cases h
  | cons field rest ih =>
    obtain ⟨key, old⟩ := field
    rw [Table.lookup_cons] at h
    rw [setIn]
    by_cases hkey : key = name
    · obtain rfl : old = datum := by simpa [hkey] using h
      rw [if_pos hkey]
    · rw [if_neg hkey, ih (by simpa [Ne.symm hkey] using h)]

/-- A new name comes last. -/
theorem names_setIn : (setIn attributes name datum).map Prod.fst =
    if name ∈ attributes.map Prod.fst then attributes.map Prod.fst
    else attributes.map Prod.fst ++ [name] := by
  induction attributes with
  | nil => rfl
  | cons field rest ih =>
    obtain ⟨key, old⟩ := field
    rw [setIn]
    by_cases hkey : key = name
    · simp [hkey]
    · rw [if_neg hkey, List.map_cons, ih, List.map_cons]
      by_cases hrest : name ∈ rest.map Prod.fst <;> simp [hrest, Ne.symm hkey]

/-- A standard attribute leaves the extra fields as they are. -/
theorem filter_isExtra_setIn (h : isExtra name = false) :
    (setIn attributes name datum).filter (fun field => isExtra field.1) =
      attributes.filter fun field => isExtra field.1 := by
  induction attributes with
  | nil => simp [setIn, h]
  | cons field rest ih =>
    obtain ⟨key, old⟩ := field
    rw [setIn]
    by_cases hkey : key = name
    · simp [hkey, h]
    · rw [if_neg hkey, List.filter_cons, ih, List.filter_cons]

variable {entry : Entry}

/-- The names of the attributes of an entry, in order. -/
def names (entry : Entry) : List String :=
  entry.attributes.map Prod.fst

theorem names_set : (entry.set name datum).names =
    if name ∈ entry.names then entry.names else entry.names ++ [name] :=
  names_setIn

theorem lookup_set : (entry.set name datum).attributes.lookup other =
    if other = name then some datum else entry.attributes.lookup other :=
  lookup_setIn

theorem lookup_set_self : (entry.set name datum).attributes.lookup name = some datum := by
  rw [lookup_set, if_pos rfl]

theorem lookup_set_of_ne (h : other ≠ name) :
    (entry.set name datum).attributes.lookup other = entry.attributes.lookup other := by
  rw [lookup_set, if_neg h]

theorem set_eq_self (h : entry.attributes.lookup name = some datum) :
    entry.set name datum = entry :=
  congrArg Entry.mk (setIn_eq_self h)

theorem extras_set (h : isExtra name = false) : (entry.set name datum).extras = entry.extras :=
  filter_isExtra_setIn h

theorem get_eq (h : entry.attributes.lookup name = some datum) : entry.get name = datum := by
  rw [get, h, Option.getD_some]

/-! ### Attributes are set one after the other -/

/-- An entry on which attributes have been set, in the order in which they are given. -/
def setAll (entry : Entry) (given : List (String × Datum)) : Entry :=
  given.foldl (fun entry field => entry.set field.1 field.2) entry

theorem setAll_append_singleton {field : String × Datum} :
    entry.setAll (given ++ [field]) = (entry.setAll given).set field.1 field.2 := by
  rw [setAll, List.foldl_append]
  rfl

/-- What has been given last counts. -/
theorem lookup_setAll : (entry.setAll given).attributes.lookup name =
    (given.reverse.lookup name).or (entry.attributes.lookup name) := by
  induction given using List.reverseRecOn with
  | nil => rfl
  | append_singleton given field ih =>
    obtain ⟨key, datum⟩ := field
    rw [setAll_append_singleton, lookup_set, ih, List.reverse_append, List.reverse_singleton,
      List.singleton_append, Table.lookup_cons]
    split <;> rfl

theorem mem_names_setAll :
    name ∈ (entry.setAll given).names ↔ name ∈ entry.names ∨ name ∈ given.map Prod.fst := by
  induction given using List.reverseRecOn with
  | nil => simp [setAll]
  | append_singleton given field ih =>
    rw [setAll_append_singleton, names_set, List.map_append, List.mem_append, ← or_assoc, ← ih]
    split
    · next hold =>
      refine ⟨.inl, fun h => h.elim id fun hlast => ?_⟩
      rwa [List.mem_singleton.mp hlast]
    · exact List.mem_append

theorem nodup_names_setAll (h : entry.names.Nodup) : (entry.setAll given).names.Nodup := by
  induction given using List.reverseRecOn with
  | nil => exact h
  | append_singleton given field ih =>
    rw [setAll_append_singleton, names_set]
    split
    · exact ih
    · next hnew =>
      refine List.nodup_append.mpr ⟨ih, List.pairwise_singleton .., fun first hfirst last h => ?_⟩
      rw [List.mem_singleton.mp h]
      exact ne_of_mem_of_not_mem hfirst hnew

/-! ### Extra fields -/

theorem isExtra_iff :
    isExtra name = true ↔ name ∉ standardAttributes ∧ name.toList.head? ≠ some '_' := by
  simp [isExtra]

theorem isExtra_of_mem (h : name ∈ standardAttributes) : isExtra name = false :=
  Bool.eq_false_iff.mpr fun hextra => (isExtra_iff.mp hextra).1 h

theorem names_extras : entry.extras.map Prod.fst = entry.names.filter isExtra := by
  rw [names, List.filter_map]
  rfl

/-- **The extra fields** that attributes given one after the other amount to. -/
structure AreFieldsOf (fields given : List (String × Datum)) : Prop where
  /-- They are what has been given last under names that are neither standard nor begin with an
  underscore. -/
  mem_iff : ∀ name datum, (name, datum) ∈ fields ↔ name ∉ standardAttributes ∧
    name.toList.head? ≠ some '_' ∧ given.reverse.lookup name = some datum
  /-- They stand in the order in which their names have been given first, each name once. -/
  ordered : (fields.map Prod.fst).Pairwise fun a b =>
    (given.map Prod.fst).idxOf a < (given.map Prod.fst).idxOf b

/-- Names come out in the order in which they have been given first. -/
theorem ordered_setAll (hstandard : ∀ name ∈ entry.names, name ∈ standardAttributes) :
    ((entry.setAll given).extras.map Prod.fst).Pairwise fun a b =>
      (given.map Prod.fst).idxOf a < (given.map Prod.fst).idxOf b := by
  rw [names_extras]
  induction given using List.reverseRecOn with
  | nil =>
    have hnone : entry.names.filter isExtra = [] :=
      List.filter_eq_nil_iff.mpr fun name hname =>
        Bool.eq_false_iff.mp (isExtra_of_mem (hstandard name hname))
    exact hnone ▸ .nil
  | append_singleton given field ih =>
    have hgiven : ∀ a ∈ (entry.setAll given).names.filter isExtra, a ∈ given.map Prod.fst := by
      intro a ha
      obtain ⟨hname, hextra⟩ := List.mem_filter.mp ha
      rcases mem_names_setAll.mp hname with hold | hgiven
      · exact absurd (hstandard a hold) (isExtra_iff.mp hextra).1
      · exact hgiven
    have hkept : ((entry.setAll given).names.filter isExtra).Pairwise fun a b =>
        ((given ++ [field]).map Prod.fst).idxOf a < ((given ++ [field]).map Prod.fst).idxOf b := by
      refine ih.imp_of_mem fun {a b} ha hb hlt => ?_
      rwa [List.map_append, List.idxOf_append_of_mem (hgiven a ha),
        List.idxOf_append_of_mem (hgiven b hb)]
    rw [setAll_append_singleton, names_set]
    split
    · exact hkept
    · next hnew =>
      have hlate : field.1 ∉ given.map Prod.fst := fun h => hnew (mem_names_setAll.mpr (.inr h))
      rw [List.filter_append]
      refine List.pairwise_append.mpr
        ⟨hkept, (List.pairwise_singleton ..).filter _, fun a ha b hb => ?_⟩
      rw [List.mem_singleton.mp (List.mem_filter.mp hb).1, List.map_append,
        List.idxOf_append_of_mem (hgiven a ha), List.idxOf_append_of_notMem hlate]
      exact Nat.lt_add_right _ (List.idxOf_lt_length_of_mem (hgiven a ha))

/-- **The extra fields of an entry** on which attributes have been set, if it had standard ones
only before. -/
theorem areFieldsOf_setAll (hstandard : ∀ name ∈ entry.names, name ∈ standardAttributes)
    (hnodup : entry.names.Nodup) : AreFieldsOf (entry.setAll given).extras given := by
  refine ⟨fun name datum => ?_, ordered_setAll hstandard⟩
  rw [extras, List.mem_filter, Table.mem_iff_lookup (nodup_names_setAll hnodup), lookup_setAll,
    isExtra_iff, and_comm, and_assoc]
  refine and_congr_right fun hname => and_congr_right fun _ => ?_
  have hbefore : entry.attributes.lookup name = none :=
    Table.lookup_eq_none_iff.mpr fun h => hname (hstandard name h)
  rw [hbefore, Option.or_none]

/-! ### New entries -/

variable {logger level message created thousandths : Datum} {arguments : List Datum}
  {circumstances : Circumstances}

/-- **A new entry** has standard attributes, and the extra ones have been set on it. -/
theorem exists_setAll_of_make
    (h : make logger level message arguments created thousandths circumstances given = .ok entry) :
    ∃ standard : Entry, standard.names.Nodup ∧
      (∀ name ∈ standard.names, name ∈ standardAttributes) ∧ entry = standard.setAll given := by
  rw [make] at h
  split at h
  · cases h
  · obtain ⟨created, -, h⟩ := Outcome.bind_eq_ok.mp h
    obtain ⟨thousandths, -, h⟩ := Outcome.bind_eq_ok.mp h
    refine ⟨_, ?_, ?_, (Except.ok.inj h).symm⟩
    -- a task has an attribute only in programs that tell it
    all_goals
      simp only [names, Circumstances.place, Circumstances.spot, Circumstances.run]
      cases circumstances.taskName <;> simp [standardAttributes]

end Clearance.Log.Entry
