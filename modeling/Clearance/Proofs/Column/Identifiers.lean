import Clearance.Identifier.Column
import Clearance.Proofs.Condition.Leaf
import Clearance.Proofs.Identifier.Spelling
import Clearance.Proofs.Store.Keys

/-!
# Identifiers in a store

A database without a type for identifiers stores their written form. This file says that
nothing is lost by it (`Clearance.IdColumn.store_exact`).

* What is stored is read back as the same identifier, and storing it again changes nothing, on
  every database and in whatever spelling it was given.
* A comparison with an identifier, or with what denotes one, selects the rows that have it
  (`Clearance.Condition.eval_equalsFilter_id`, `Clearance.Condition.eval_amongFilter_id`).
* Rows sorted by the characters of what is stored, those without an identifier first, are
  sorted by their identifiers (`Clearance.Store.before_iff_atMost`).
-/

namespace Clearance

/-! ### Columns of identifiers -/

namespace IdColumn

variable {dialect : String} {column : IdColumn} {operand stored : Operand} {key : Uuid}

/-- An identifier in the form in which a column stores it. -/
def form : IdColumn → Uuid → Operand
  | native, key => .id key
  | written, key => .value (.text key.text)

theorem denoted_text (text : String) : denoted (.value (.text text)) = Uuid.read text :=
  rfl

/-- What is stored is one identifier in the form of the column. -/
theorem store_eq (hnull : operand ≠ .value .null) :
    column.store operand = (denoted operand).map column.form := by
  cases operand with
  | id key => cases column <;> rfl
  | value value =>
    cases value with
    | null => exact absurd rfl hnull
    | _ => cases column <;> rfl

theorem store_id : column.store (.id key) = .ok (column.form key) :=
  rfl

theorem load_eq (hnull : operand ≠ .value .null) : load operand = (denoted operand).map some := by
  cases operand with
  | id key => rfl
  | value value =>
    cases value with
    | null => exact absurd rfl hnull
    | _ => rfl

/-- Either form denotes the identifier. -/
theorem denoted_form : denoted (column.form key) = .ok key := by
  cases column with
  | native => rfl
  | written => exact Uuid.read_text key

theorem form_ne_null : column.form key ≠ .value .null := by
  cases column <;> simp [form]

/-- **What is stored** can be stored again and read back. -/
theorem store_form : column.store (column.form key) = .ok (column.form key) := by
  rw [store_eq form_ne_null, denoted_form, Except.map]

theorem load_form : load (column.form key) = .ok (some key) := by
  rw [load_eq form_ne_null, denoted_form, Except.map]

/-- **Storing again changes nothing**, and what is read back is what was denoted. -/
theorem store_stored (hnull : operand ≠ .value .null) (h : column.store operand = .ok stored) :
    column.store stored = .ok stored ∧
      ∃ key, denoted operand = .ok key ∧ load stored = .ok (some key) := by
  rw [store_eq hnull] at h
  obtain ⟨key, hkey, rfl⟩ := Outcome.map_eq_ok.mp h
  exact ⟨store_form, key, hkey, load_form⟩

theorem ofDialect_eq_written (hlong : dialect ≠ "postgresql") (hshort : dialect ≠ "postgres") :
    ofDialect dialect = written := by
  simp [ofDialect, hlong, hshort]

end IdColumn

/-! ### Comparisons -/

/-- An operand that **denotes an identifier**: nothing denotes none. -/
structure Operand.Denotes (operand : Operand) (key : Uuid) : Prop where
  /-- It is not nothing. -/
  ne_null : operand ≠ .value .null
  /-- It is the identifier, or is read as it. -/
  denoted : IdColumn.denoted operand = .ok key

variable {entity : Entity} {name : String} {operand : Operand} {operands : List Operand}
  {key : Uuid} {keys : List Uuid}

/-- What denotes an identifier is handed over like the identifier. -/
theorem Column.takeBy_of_denotes (h : operand.Denotes key) :
    Column.id.takeBy .identifier operand = .ok (stored (.id key)) := by
  obtain ⟨hnull, hkey⟩ := h
  have hhand : Carrier.asIdentifier operand = .ok (.text key.text) := by
    cases operand with
    | id other =>
      obtain rfl : other = key := Except.ok.inj hkey
      rfl
    | value value =>
      have hread : Uuid.read? value.plain = some key := Outcome.toOption_eq_some_iff.mpr hkey
      cases value with
      | null => exact absurd rfl hnull
      | _ => rw [Carrier.asIdentifier, hread]; simp
  rw [takeBy, Carrier.hand, hhand]
  rfl

/-- So are several operands. -/
theorem Column.takeAll_of_denotes (h : List.Forall₂ Operand.Denotes operands keys) :
    Column.id.takeAll operands = ((keys.map Operand.id).map stored).map .ok := by
  have heach : operands.map (Column.id.takeBy .identifier) =
      ((keys.map Operand.id).map stored).map .ok := by
    induction h with
    | nil => rfl
    | cons hfirst _ ih => rw [List.map_cons, takeBy_of_denotes hfirst, ih]; rfl
  cases operands with
  | nil => exact heach
  | cons first rest => exact heach

theorem Cell.isTyped_of_fits_id {cell : Cell} (h : cell.Fits .id) : cell.IsTyped := by
  rintro column held rfl
  obtain ⟨_ | id, h⟩ := h <;> cases h

theorem Cell.equals_id {cell : Cell} : cell.equals (.id key) = true ↔ cell = .id key := by
  cases cell with
  | id other => simp [equals]
  | content column held => cases held <;> simp [equals]
  | _ => simp [equals]

namespace Condition

/-- **A comparison with one operand** says whether a row has the identifier denoted, -/
theorem eval_equalsFilter_id (hcolumn : entity.kind.column? name = some .id)
    (h : operand.Denotes key) :
    ∃ filter, equalsFilter entity.kind name operand = .ok filter ∧
      filter.eval entity = some ((entity.cell name).equals (.id key)) := by
  have htake : Column.id.take operand = .ok (Column.stored (.id key)) := Column.takeBy_of_denotes h
  have hfits := Entity.fits_cell hcolumn
  refine ⟨_, equalsFilter_of_take (comparable_eq hcolumn rfl) h.ne_null htake, ?_⟩
  rw [eval_guarded, Filter.eval]
  exact Cell.eval_equals hfits rfl (Cell.isTyped_of_fits_id hfits) rfl

/-- and one with several operands whether it has one of those denoted. -/
theorem eval_amongFilter_id (hcolumn : entity.kind.column? name = some .id)
    (h : List.Forall₂ Operand.Denotes operands keys) :
    ∃ filter, amongFilter entity.kind name operands = .ok filter ∧
      filter.eval entity = some ((keys.map Operand.id).any (entity.cell name).equals) := by
  have htaken := Column.takeAll_of_denotes h
  have hfits := Entity.fits_cell hcolumn
  cases h with
  | nil => exact ⟨.constant false, rfl, rfl⟩
  | cons =>
    have hfound := comparable_eq hcolumn rfl
    refine ⟨_, amongFilter_of_takeAll hfound (List.cons_ne_nil _ _) htaken, ?_⟩
    rw [eval_guarded, Filter.eval]
    refine Cell.eval_among hfits rfl (Cell.isTyped_of_fits_id hfits) ?_
    exact List.all_eq_true.mpr (List.forall_mem_map.mpr fun _ _ => rfl)

end Condition

/-! ### Order -/

/-- A stored value of a column of identifiers that is sorted **before another or with it**:
nothing comes first, and texts are sorted by their characters. -/
def Stored.AtMost : Stored → Stored → Prop
  | .empty, _ => True
  | .text a, .text b => a ≤ b
  | _, _ => False

namespace Store

variable {a b : Entity}

/-- **The order of identifiers is the order of what is stored** for them. -/
theorem before_iff_atMost :
    before a b = true ↔ (a.cell "id").stored.AtMost (b.cell "id").stored := by
  rw [Entity.cell_id, Entity.cell_id, before]
  rcases a.id with _ | u
  · exact iff_of_true rfl trivial
  rcases b.id with _ | v
  · exact iff_of_false Bool.false_ne_true id
  · have htexts : u.number ≤ v.number ↔ u.text ≤ v.text := by
      rw [← Nat.not_lt, ← String.not_lt, Uuid.text_lt_text_iff]
    exact decide_eq_true_iff.trans htexts

end Store

namespace IdColumn

/-- **A column of identifiers keeps their identity and their order.** On every database an
identifier comes back from its column. Where the written form is stored, it is in five groups of
small digits, and written forms are equal or in order just as the identifiers are. So a
comparison with what denotes one or several identifiers says which rows have them, and rows that
are sorted by identifier are sorted by what is stored. Whatever else than nothing can be stored
is stored as the identifier that it denotes, in any spelling; it is stored as the same again, and
comes back as that identifier. -/
theorem store_exact :
    (∀ (dialect : String) (u : Uuid), ∃ stored,
      (ofDialect dialect).store (.id u) = .ok stored ∧ load stored = .ok (some u)) ∧
    (∀ dialect : String, dialect ≠ "postgresql" → dialect ≠ "postgres" → ∀ u : Uuid,
      (ofDialect dialect).store (.id u) = .ok (.value (.text u.text)) ∧ u.IsWritten u.text) ∧
    (∀ u v : Uuid, (u = v ↔ u.text = v.text) ∧ (u.number < v.number ↔ u.text < v.text)) ∧
    (∀ (entity : Entity) (name : String) (operand : Operand) (key : Uuid),
      entity.kind.column? name = some .id → operand.Denotes key →
      ∃ filter answer, Condition.equalsFilter entity.kind name operand = .ok filter ∧
        filter.eval entity = some answer ∧ (answer = true ↔ entity.cell name = .id key)) ∧
    (∀ (entity : Entity) (name : String) (operands : List Operand) (keys : List Uuid),
      entity.kind.column? name = some .id → List.Forall₂ Operand.Denotes operands keys →
      ∃ filter answer, Condition.amongFilter entity.kind name operands = .ok filter ∧
        filter.eval entity = some answer ∧
          (answer = true ↔ ∃ key ∈ keys, entity.cell name = .id key)) ∧
    (∀ entities : List Entity, (Store.ordered entities).Perm entities ∧
      (Store.ordered entities).Pairwise fun a b =>
        (a.cell "id").stored.AtMost (b.cell "id").stored) ∧
    (∀ (dialect : String) (operand stored : Operand), operand ≠ .value .null →
      (ofDialect dialect).store operand = .ok stored →
      (ofDialect dialect).store stored = .ok stored ∧
        ∃ key, operand.Denotes key ∧ load stored = .ok (some key)) ∧
    (∀ (dialect : String) (text : String) (u : Uuid), u.Spells text.toList →
      (ofDialect dialect).store (.value (.text text)) = (ofDialect dialect).store (.id u)) := by
  refine ⟨fun dialect u => ⟨_, store_id, load_form⟩, ?_, ?_, ?_, ?_, ?_, ?_, ?_⟩
  · intro dialect hlong hshort u
    rw [ofDialect_eq_written hlong hshort]
    exact ⟨store_id, u.isWritten_text⟩
  · exact fun u v => ⟨Uuid.text_inj.symm, Uuid.text_lt_text_iff.symm⟩
  · intro entity name operand key hcolumn h
    obtain ⟨filter, hfilter, heval⟩ := Condition.eval_equalsFilter_id hcolumn h
    exact ⟨filter, _, hfilter, heval, Cell.equals_id⟩
  · intro entity name operands keys hcolumn h
    obtain ⟨filter, hfilter, heval⟩ := Condition.eval_amongFilter_id hcolumn h
    refine ⟨filter, _, hfilter, heval, ?_⟩
    simp only [List.any_map, List.any_eq_true, Function.comp_apply, Cell.equals_id]
  · intro entities
    refine ⟨Store.perm_ordered entities, ?_⟩
    exact (Store.pairwise_before_ordered entities).imp Store.before_iff_atMost.mp
  · intro dialect operand stored hnull h
    obtain ⟨hagain, key, hkey, hload⟩ := store_stored hnull h
    exact ⟨hagain, key, ⟨hnull, hkey⟩, hload⟩
  · intro dialect text u h
    rw [store_id, store_eq (by simp), denoted_text, Uuid.read_eq_of_spells h, Except.map]

/-- Capitals between braces, stored and compared with the identifier of a role. -/
theorem store_exact_capitals :
    let braced : Operand := .value (.text "\x7b000000000000000000000000000000AB\x7d")
    let written : Operand := .value (.text "00000000-0000-0000-0000-0000000000ab")
    let role : Entity := .role { id := some 171 }
    (ofDialect "sqlite").store braced = .ok written ∧
      (ofDialect "sqlite").store written = .ok written ∧ load written = .ok (some 171) ∧
      (∃ filter, Condition.equalsFilter role.kind "id" braced = .ok filter ∧
        filter.eval role = some true) ∧
      (∃ filter, Condition.amongFilter role.kind "id" [.id 5, braced] = .ok filter ∧
        filter.eval role = some true) := by
  intro braced written role
  have hdigits : Text.AreDigitsOf (List.replicate 30 0 ++ [10, 11]) (171 : Uuid).number :=
    ⟨by decide, by decide⟩
  have hspelled : Uuid.Spells 171 "000000000000000000000000000000AB".toList :=
    .digits rfl hdigits (Text.map_toLower_eq_iff.mp (by decide))
  have hchars : "\x7b000000000000000000000000000000AB\x7d".toList =
      '\x7b' :: "000000000000000000000000000000AB".toList ++ ['\x7d'] := by
    decide
  have hbraced : Uuid.Spells 171 "\x7b000000000000000000000000000000AB\x7d".toList := by
    rw [hchars]
    exact hspelled.braced
  have htext : (171 : Uuid).text = "00000000-0000-0000-0000-0000000000ab" := by decide
  obtain ⟨-, hform, -, hequals, hamong, -, hagain, hspellings⟩ := store_exact
  have hstore : (ofDialect "sqlite").store braced = .ok written := by
    rw [hspellings "sqlite" _ 171 hbraced,
      (hform "sqlite" (by decide) (by decide) 171).1, htext]
  have hdenotes : braced.Denotes 171 :=
    ⟨by simp [braced], (denoted_text _).trans (Uuid.read_eq_of_spells hbraced)⟩
  obtain ⟨hwritten, key, ⟨-, hkey⟩, hload⟩ :=
    hagain "sqlite" braced written (by simp [braced]) hstore
  obtain rfl : 171 = key := Except.ok.inj (hdenotes.denoted.symm.trans hkey)
  have hcell : role.cell "id" = .id 171 := Entity.cell_id role
  obtain ⟨one, answer, hone, hanswer, hequal⟩ := hequals role "id" braced 171 rfl hdenotes
  obtain rfl : answer = true := hequal.mpr hcell
  obtain ⟨many, answer, hmany, hanswer', hmember⟩ :=
    hamong role "id" [.id 5, braced] [5, 171] rfl (.cons ⟨by simp, rfl⟩ (.cons hdenotes .nil))
  obtain rfl : answer = true := hmember.mpr ⟨171, by simp, hcell⟩
  exact ⟨hstore, hwritten, hload, ⟨one, hone, hanswer⟩, ⟨many, hmany, hanswer'⟩⟩

end IdColumn

end Clearance
