import Clearance.Proofs.Condition.Leaf
import Clearance.Proofs.Store.Keys

/-!
# What is loaded from rows

A row names other rows by their identifiers, and loading it brings along what it names.
Loading changes neither the kind nor the identifier of a row, so a store of rows is keyed if
the rows are (`Clearance.Store.isKeyed_ofRows`). A record comes with the form that it was
submitted through if there is one in the store, and with no other
(`Clearance.Store.isLinked_ofRows`).

A store that is open and has been loaded so is *sound* (`Clearance.Store.IsSound`).
-/

namespace Clearance.Store

variable {store : Store} {rows : List Entity} {row : Entity} {link : Link} {id : Uuid}

/-! ### Keys -/

theorem listed?_loadRow (rows : List Entity) (row : Entity) :
    (loadRow rows row).listed? = row.listed? := by
  cases row <;> rfl

/-- A store of rows is keyed if the rows are. -/
theorem isKeyed_ofRows (hid : ∀ row ∈ rows, ∃ id, row.id = some id)
    (hdistinct : rows.Pairwise fun a b => a.SharesKeys b → a.id ≠ b.id) :
    (ofRows rows).IsKeyed where
  identified entity hentity := by
    obtain ⟨row, hrow, rfl⟩ := List.mem_map.mp hentity
    rw [id_loadRow]
    exact hid row hrow
  distinct := by
    refine List.pairwise_map.mpr (hdistinct.imp fun {a b} hab => ?_)
    rw [Entity.SharesKeys, kind_loadRow, kind_loadRow, listed?_loadRow, listed?_loadRow,
      id_loadRow, id_loadRow]
    exact hab

/-! ### Links -/

/-- A store whose records are **linked**: each is loaded with the form that it was submitted
through. -/
def IsLinked (store : Store) : Prop :=
  ∀ record : Record, .record record ∈ store.entities →
    record.form = record.formId.bind (store.find? .form)

/-- Only records and users bring anything along. -/
theorem loadRow_of_form (h : row.kind = .form) : loadRow rows row = row := by
  cases row <;> first | rfl | cases h

theorem of_rowIn?_eq_some {kind : Kind} (h : rowIn? kind rows id = some row) :
    row.kind = kind ∧ row.id = some id := by
  simpa using List.find?_some h

/-- Among the loaded rows a form is found where it was among the rows. -/
theorem find?_form_ofRows : (ofRows rows).find? .form id = rowIn? .form rows id := by
  have hsame : ∀ row : Entity,
      ((loadRow rows row).kind == .form && (loadRow rows row).id == some id) =
      (row.kind == .form && row.id == some id) := fun row => by rw [kind_loadRow, id_loadRow]
  rw [find?, ofRows, rowIn?, List.find?_map, rowIn?]
  simp only [Function.comp_def, hsame]
  cases hfound : rows.find? fun row => row.kind == .form && row.id == some id with
  | none => rfl
  | some row => rw [Option.map_some, loadRow_of_form (of_rowIn?_eq_some hfound).1]

/-- **Loading links** every record with its form. -/
theorem isLinked_ofRows (rows : List Entity) : (ofRows rows).IsLinked := by
  intro record hrecord
  obtain ⟨row, -, hrow⟩ := List.mem_map.mp hrecord
  cases row with
  | record r =>
    obtain rfl := Entity.record.inj hrow
    cases hformId : r.formId with
    | none => simp [linkOf, hformId]
    | some formId =>
      simp only [linkOf, hformId, Option.bind_some, find?_form_ofRows]
      cases hfound : rowIn? .form rows formId with
      | none => rfl
      | some form =>
        -- what is found has the identifier that was looked for
        rw [Option.bind_some, (of_rowIn?_eq_some hfound).2, Option.bind_some, hfound]
  | _ => cases hrow

/-- In a keyed store what a record was loaded with is a stored form. -/
theorem IsLinked.mem_of_form (hlinked : store.IsLinked) (hkeyed : store.IsKeyed) {record : Record}
    {form : Entity} (hrecord : .record record ∈ store.entities) (hform : record.form = some form) :
    form ∈ store.entities ∧ form.kind = .form := by
  rw [hlinked record hrecord] at hform
  obtain ⟨formId, -, hfound⟩ := Option.bind_eq_some_iff.mp hform
  obtain ⟨hstored, hkind, -⟩ := hkeyed.find?_eq_some_iff.mp hfound
  exact ⟨hstored, hkind⟩

/-! ### Sound stores -/

/-- A **sound** store: it is open, every object has a key of its own and has been loaded, and
records are linked. -/
structure IsSound (store : Store) : Prop where
  /-- The store is open. -/
  isOpen : store.isOpen = true
  /-- Every object has a key of its own. -/
  keyed : store.IsKeyed
  /-- Every record is loaded with its form. -/
  linked : store.IsLinked
  /-- Every object has been loaded. -/
  loaded : ∀ entity ∈ store.entities, entity.IsLoaded

end Clearance.Store
