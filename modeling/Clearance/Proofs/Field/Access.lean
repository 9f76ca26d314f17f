import Clearance.FieldAccess
import Clearance.Proofs.Identifier.Text
import Clearance.Proofs.Outcome
import Mathlib.Data.List.Basic

/-!
# Which fields are open

The names of fields come from two places, the definitions and the data of a record, and are
then taken away again definition by definition. So a field that is defined more than once might
be let through by an open definition next to a closed one, and one that is not defined at all
might be lost or leak. This file says that neither happens
(`Clearance.Ability.accessibleFields_exact`): if the ability manages the record all the names are
accessible, and otherwise a name is when *every* definition that names it is open to the
principal. Hence the order of the definitions does not matter, and what the data holds under a
hidden name does not show.

The definitions are those that are given along, or else those of the resource of the record, or
of its form when it has no resource (`Clearance.Entity.fieldDefinitions_eq_ok_iff`).

What definitions say is told apart from how they are read: which name a definition has
(`Clearance.FieldDefinition.Names`), which roles it lists (`Clearance.FieldDefinition.Lists`),
and to whom it is open (`Clearance.FieldDefinition.IsOpenTo`). They have to be objects, and
where it matters to whom a field is open, the role lists of those that name one have to have
the shape that is looked for, as far as they are not missing
(`Clearance.FieldDefinition.IsReadable`).
-/

namespace Clearance

open Outcome

/-! ### Documents -/

namespace Value

variable {value item : Value}

/-- A document that **has members**, or counts as missing and has none. -/
def HasMembers (value : Value) : Prop :=
  value.isEmpty = true ∨ ∃ members, value = .object members

/-- A document that **has items**, or counts as missing and has none. -/
def HasItems (value : Value) : Prop :=
  value.isEmpty = true ∨ ∃ items, value.items? = some items

theorem membersOrNone_eq (h : value.HasMembers) : value.membersOrNone = .ok value.asMembers := by
  cases value with
  | object members => rfl
  | _ =>
    rcases h with hempty | ⟨members, hmembers⟩
    · rw [membersOrNone, if_pos hempty]
      · rfl
      · rintro _ ⟨⟩
    · cases hmembers

/-- What counts as missing has no items. -/
theorem items?_of_isEmpty (h : value.isEmpty = true) {items : List Value}
    (hitems : value.items? = some items) : items = [] := by
  cases value with
  | list found =>
    obtain rfl := Option.some.inj hitems
    exact List.isEmpty_iff.mp h
  | text chars =>
    obtain rfl := Option.some.inj hitems
    simpa [isEmpty] using h
  | object members =>
    obtain rfl := Option.some.inj hitems
    simpa [isEmpty] using h
  | _ => cases hitems

/-- **The items** of a document, which has none if it counts as missing. -/
theorem itemsOrNone_eq_ok_iff {items : List Value} : value.itemsOrNone = .ok items ↔
    value.isEmpty = true ∧ items = [] ∨ value.items? = some items := by
  rw [itemsOrNone]
  split
  · next hempty =>
    rw [Except.ok.injEq, eq_comm, hempty]
    refine ⟨fun hitems => .inl ⟨rfl, hitems⟩, ?_⟩
    rintro (⟨-, hitems⟩ | hitems)
    · exact hitems
    · exact items?_of_isEmpty hempty hitems
  · next hempty => cases value.items? <;> simp [hempty]

theorem exists_itemsOrNone (h : value.HasItems) : ∃ items, value.itemsOrNone = .ok items ∧
    ∀ item, item ∈ items ↔ ∃ found, value.items? = some found ∧ item ∈ found := by
  rcases h with hempty | ⟨items, hitems⟩
  · refine ⟨[], itemsOrNone_eq_ok_iff.mpr (.inl ⟨hempty, rfl⟩),
      fun item => iff_of_false List.not_mem_nil ?_⟩
    rintro ⟨found, hfound, hitem⟩
    rw [items?_of_isEmpty hempty hfound] at hitem
    exact List.not_mem_nil hitem
  · exact ⟨items, itemsOrNone_eq_ok_iff.mpr (.inr hitems), fun item => by simp [hitems]⟩

end Value

/-! ### What definitions say -/

namespace FieldDefinition

variable {definition : Value} {name list role : String} {principal : Option Principal}

/-- A definition **names** a field: it has a name that does not count as missing, and which is
that of the field as text. -/
def Names (definition : Value) (name : String) : Prop :=
  (definition.get "name").isEmpty = false ∧ (definition.get "name").plain = name

/-- A definition **lists** a role in one of its role lists. -/
def Lists (list : String) (definition : Value) (role : String) : Prop :=
  ∃ items, ((definition.get "permissions").get list).items? = some items ∧
    ∃ item ∈ items, item.plain = role

/-- A definition is **open** to a principal if it lists no role, or one of the principal's. -/
def IsOpenTo (principal : Option Principal) (list : String) (definition : Value) : Prop :=
  (∀ role, ¬ Lists list definition role) ∨
    ∃ someone, principal = some someone ∧ ∃ id ∈ someone.roleIds, Lists list definition id.text

/-- A role list of a definition **can be read**, which it also can if it is missing. -/
structure IsReadable (list : String) (definition : Value) : Prop where
  /-- What the definition says about permissions is an object, or is missing. -/
  permissions : (definition.get "permissions").HasMembers
  /-- The role list has items. -/
  listed : ((definition.get "permissions").get list).HasItems

/-- What a definition holds under a name. -/
theorem member_eq (h : ∃ members, definition = .object members) :
    definition.member name = .ok (definition.get name) := by
  obtain ⟨members, rfl⟩ := h
  rfl

/-- **The name** of a definition that is an object. -/
theorem exists_definitionName (h : ∃ members, definition = .object members) :
    ∃ found, definitionName definition = .ok found ∧
      ∀ name, found = some name ↔ Names definition name := by
  rw [definitionName, member_eq h]
  refine ⟨_, rfl, fun name => ?_⟩
  rw [Names]
  cases hempty : (definition.get "name").isEmpty <;> simp [hempty]

/-- **The roles** in a list of a definition. -/
theorem exists_definitionRoles (hobject : ∃ members, definition = .object members)
    (h : IsReadable list definition) :
    ∃ roles, definitionRoles list definition = .ok roles ∧
      ∀ role, role ∈ roles ↔ Lists list definition role := by
  obtain ⟨items, hitems, hmem⟩ := Value.exists_itemsOrNone h.listed
  have hlisted : (Members.get? (definition.get "permissions").asMembers list).getD .null =
      (definition.get "permissions").get list := by
    cases definition.get "permissions" <;> rfl
  refine ⟨items.map Value.plain, ?_, fun role => ?_⟩
  · simp only [definitionRoles, member_eq hobject, Value.membersOrNone_eq h.permissions, bind,
      Except.bind, hlisted, hitems]
    rfl
  · rw [List.mem_map, Lists]
    constructor
    · rintro ⟨item, hitem, hrole⟩
      obtain ⟨found, hfound, hitem⟩ := (hmem item).mp hitem
      exact ⟨found, hfound, item, hitem, hrole⟩
    · rintro ⟨found, hfound, item, hitem, hrole⟩
      exact ⟨item, (hmem item).mpr ⟨found, hfound, hitem⟩, hrole⟩

/-- A definition closes its field to whomever it is not open to. -/
theorem closedTo_eq_true_iff {roles : List String}
    (h : ∀ role, role ∈ roles ↔ Lists list definition role) :
    closedTo principal roles = true ↔ ¬ IsOpenTo principal list definition := by
  have hempty : roles.isEmpty = true ↔ ∀ role, ¬ Lists list definition role := by
    rw [List.isEmpty_iff, List.eq_nil_iff_forall_not_mem]
    exact forall_congr' fun role => not_congr (h role)
  have hmine : roles.any (((principal.map (·.roleIds)).getD []).map Uuid.text).contains = true ↔
      ∃ someone, principal = some someone ∧ ∃ id ∈ someone.roleIds,
        Lists list definition id.text := by
    cases principal with
    | none => simp
    | some someone =>
      simp only [List.any_eq_true, h, Option.map_some, Option.getD_some, List.contains_iff_mem,
        List.mem_map, Option.some.injEq, exists_eq_left']
      constructor
      · rintro ⟨role, hrole, id, hid, rfl⟩
        exact ⟨id, hid, hrole⟩
      · rintro ⟨id, hid, hrole⟩
        exact ⟨id.text, hrole, id, hid, rfl⟩
  rw [closedTo, Bool.and_eq_true, Bool.not_eq_true', Bool.not_eq_true', ← Bool.not_eq_true,
    ← Bool.not_eq_true, hempty, hmine, IsOpenTo, not_or]

/-- **The name that a definition closes** to a principal, if it closes any. The roles matter
only if it has a name. -/
theorem exists_closedName (principal : Option Principal)
    (hobject : ∃ members, definition = .object members)
    (h : ∀ name, Names definition name → IsReadable list definition) :
    ∃ found, closedName principal list definition = .ok found ∧
      ∀ name, found = some name ↔ Names definition name ∧ ¬ IsOpenTo principal list definition := by
  obtain ⟨found, hfound, hnames⟩ := exists_definitionName hobject
  rw [closedName, hfound]
  cases found with
  | none =>
    refine ⟨none, rfl, fun name => iff_of_false nofun fun hname => ?_⟩
    cases (hnames name).mpr hname.1
  | some own =>
    obtain ⟨roles, hroles, hlists⟩ := exists_definitionRoles hobject (h own ((hnames own).mp rfl))
    refine ⟨if closedTo principal roles then some own else none, ?_, fun name => ?_⟩
    · simp only [hroles, bind, Except.bind]
      rfl
    · rw [← hnames, ← closedTo_eq_true_iff hlists]
      cases closedTo principal roles <;> simp

end FieldDefinition

/-! ### The fields of a record -/

section Fields

open FieldDefinition

variable {list : String} {record : Record} {definitions : List Value} {name : String}

/-- A name is that of a **field** of a record if a definition names it or the data has it. -/
def Record.HasField (record : Record) (definitions : List Value) (name : String) : Prop :=
  (∃ definition ∈ definitions, Names definition name) ∨
    ∃ member ∈ record.data.asMembers, member.1 = name

/-- What **governs** the fields of an object: the resource of a record, or its form if it has no
resource. -/
def Entity.IsGovernedBy : Entity → Entity → Prop
  | .record record, owner =>
    record.resource = some owner ∨ record.resource = none ∧ record.form = some owner
  | _, _ => False

/-- **The definitions** that are stored for an object are the items of what governs it. -/
theorem Entity.fieldDefinitions_eq_ok_iff {entity : Entity} :
    entity.fieldDefinitions = .ok definitions ↔
      (∃ owner, entity.IsGovernedBy owner ∧ (owner.fields.isEmpty = true ∧ definitions = [] ∨
        owner.fields.items? = some definitions)) ∨
      (∀ owner, ¬ entity.IsGovernedBy owner) ∧ definitions = [] := by
  have hnone : (.ok [] : Except Fault (List Value)) = .ok definitions ↔ definitions = [] := by
    rw [Except.ok.injEq, eq_comm]
  cases entity with
  | record record =>
    simp only [fieldDefinitions, IsGovernedBy]
    cases record.resource with
    | some owner => simp [Value.itemsOrNone_eq_ok_iff]
    | none =>
      cases record.form with
      | some owner => simp [Value.itemsOrNone_eq_ok_iff]
      | none => simp [hnone]
  | _ => simp [fieldDefinitions, IsGovernedBy, hnone]

/-- What each item of a list is told to give, if it gives anything. -/
theorem mem_filterMap_of_mapM {α : Type} {items : List α} {f : α → Except Fault (Option String)}
    {tells : α → String → Prop}
    (h : ∀ item ∈ items, ∃ found, f item = .ok found ∧
      ∀ name, found = some name ↔ tells item name) :
    ∃ results, items.mapM f = .ok results ∧
      ∀ name, name ∈ results.filterMap id ↔ ∃ item ∈ items, tells item name := by
  obtain ⟨results, hresults⟩ := exists_mapM fun item hitem => by
    obtain ⟨found, hfound, -⟩ := h item hitem
    exact ⟨found, hfound⟩
  refine ⟨results, hresults, fun name => ?_⟩
  simp only [List.mem_filterMap, id_eq, exists_eq_right, (mapM_eq_ok hresults).2]
  refine exists_congr fun item => and_congr_right fun hitem => ?_
  obtain ⟨found, hfound, htells⟩ := h item hitem
  rw [hfound, Except.ok.injEq, htells]

/-- **The names of the fields** are collected from both places. -/
theorem exists_fieldNames
    (hobjects : ∀ definition ∈ definitions, ∃ members, definition = .object members)
    (hdata : record.data.HasMembers) :
    ∃ names, fieldNames (.record record) definitions = .ok names ∧
      ∀ name, name ∈ names ↔ record.HasField definitions name := by
  obtain ⟨defined, hdefined, hnames⟩ := mem_filterMap_of_mapM fun definition hdefinition =>
    exists_definitionName (hobjects definition hdefinition)
  refine ⟨defined.filterMap id ++ record.data.asMembers.map (·.1), ?_, fun name => ?_⟩
  · have hvalued : (Entity.record record).data.membersOrNone = .ok record.data.asMembers :=
      Value.membersOrNone_eq hdata
    rw [fieldNames, hdefined, hvalued]
    rfl
  · rw [List.mem_append, hnames, List.mem_map, Record.HasField]

namespace Ability

variable {ability : Ability} {action : Action} {definitions? : Option Value}

/-- The definitions that are **consulted** for an object: those that are given, or else those
that govern it. -/
def consultedDefinitions (entity : Entity) (definitions? : Option Value) :
    Except Fault (List Value) :=
  match definitions? with
  | some given => givenDefinitions given
  | none => entity.fieldDefinitions

/-- The definitions that are given are the items of a document. -/
theorem consultedDefinitions_some {entity : Entity} {given : Value} :
    consultedDefinitions entity (some given) = .ok definitions ↔
      given.items? = some definitions := by
  rw [consultedDefinitions, givenDefinitions]
  cases given.items? <;> simp

/-- Otherwise they are those of what **governs** the object, if something does. -/
theorem consultedDefinitions_none {entity : Entity} :
    consultedDefinitions entity none = .ok definitions ↔
      (∃ owner, entity.IsGovernedBy owner ∧ (owner.fields.isEmpty = true ∧ definitions = [] ∨
        owner.fields.items? = some definitions)) ∨
      (∀ owner, ¬ entity.IsGovernedBy owner) ∧ definitions = [] :=
  Entity.fieldDefinitions_eq_ok_iff

theorem accessibleFields_eq (haction : fieldList? action = some list) (entity : Entity) :
    ability.accessibleFields (.text action.name) entity definitions? =
      ((consultedDefinitions entity definitions?).bind
        (ability.openFields list entity)).mapError .fault := by
  cases action with
  | read | update =>
    obtain rfl := Option.some.inj haction
    rfl
  | create | delete | manage => cases haction

/-- A field is **accessible** if the ability manages the record or all definitions that name it
are open. -/
def Accessible (ability : Ability) (list : String) (managed : Bool) (definitions : List Value)
    (name : String) : Prop :=
  managed = true ∨
    ∀ definition ∈ definitions, Names definition name → IsOpenTo ability.principal list definition

/-- The role lists that matter can be read: none if the record is managed, and otherwise those
of the definitions that name a field. -/
def CanBeRead (list : String) (managed : Bool) (definitions : List Value) : Prop :=
  managed = false → ∀ definition ∈ definitions, ∀ name, Names definition name →
    IsReadable list definition

/-- **The open fields** of a record, -/
theorem exists_openFields {managed : Bool}
    (hobjects : ∀ definition ∈ definitions, ∃ members, definition = .object members)
    (hreadable : CanBeRead list managed definitions) (hdata : record.data.HasMembers)
    (hmanaged : ability.allows .manage (.record record) = .ok managed) :
    ∃ names, ability.openFields list (.record record) definitions = .ok names ∧
      ∀ name, name ∈ names ↔
        record.HasField definitions name ∧ ability.Accessible list managed definitions name := by
  obtain ⟨names, hnames, hfield⟩ := exists_fieldNames hobjects hdata
  rw [allows] at hmanaged
  cases managed with
  | true =>
    refine ⟨names, ?_, fun name => by simp [hfield, Accessible]⟩
    simp only [openFields, hnames, hmanaged, bind, Except.bind]
    rfl
  | false =>
    obtain ⟨closed, hclosed, hcloses⟩ := mem_filterMap_of_mapM fun definition hdefinition =>
      exists_closedName ability.principal (hobjects definition hdefinition)
        (hreadable rfl definition hdefinition)
    refine ⟨names.filter fun name => !(closed.filterMap id).contains name, ?_, fun name => ?_⟩
    · simp only [openFields, hnames, hmanaged, hclosed, bind, Except.bind]
      rfl
    · -- no definition that names the field is closed
      simp only [List.mem_filter, hfield, Bool.not_eq_true', ← Bool.not_eq_true,
        List.contains_iff_mem, hcloses, Accessible, Bool.false_eq_true, false_or, not_exists,
        not_and, not_not]

/-- and the fault when the ability cannot tell whether it manages the record. -/
theorem openFields_eq_error {fault : Fault}
    (hobjects : ∀ definition ∈ definitions, ∃ members, definition = .object members)
    (hdata : record.data.HasMembers)
    (hmanaged : ability.allows .manage (.record record) = .error fault) :
    ability.openFields list (.record record) definitions = .error fault := by
  obtain ⟨names, hnames, -⟩ := exists_fieldNames hobjects hdata
  rw [allows] at hmanaged
  simp only [openFields, hnames, hmanaged, bind, Except.bind]

/-! ### The data that is shown -/

/-- The accessible data is what the data holds under accessible names. -/
theorem accessibleData_eq {names : List String} {entity : Entity}
    (hdata : entity.data.HasMembers)
    (hnames : ability.accessibleFields (.text action.name) entity definitions? = .ok names) :
    ability.accessibleData (.text action.name) entity definitions? =
      .ok (entity.data.asMembers.filter fun member => names.contains member.1) := by
  rw [accessibleData, hnames, Value.membersOrNone_eq hdata]
  rfl

/-- **What is shown of a record** for an action, by the definitions that are consulted and by
whether the ability manages the record. -/
structure Shows (ability : Ability) (action : Action) (list : String) (record : Record)
    (definitions? : Option Value) (definitions : List Value) (managed : Bool)
    (names : List String) : Prop where
  /-- These are the names of the accessible fields. -/
  fields : ability.accessibleFields (.text action.name) (.record record) definitions? = .ok names
  /-- They are those of the fields of a record that is managed, and otherwise of the fields for
  which every definition is open. -/
  exact : ∀ name, name ∈ names ↔
    record.HasField definitions name ∧ ability.Accessible list managed definitions name
  /-- Of the data, what stands under other names is left out. -/
  data : ability.accessibleData (.text action.name) (.record record) definitions? =
    .ok (record.data.asMembers.filter fun member => names.contains member.1)

variable {managed : Bool} {names : List String}

theorem exists_shows (haction : fieldList? action = some list)
    (hconsulted : consultedDefinitions (.record record) definitions? = .ok definitions)
    (hobjects : ∀ definition ∈ definitions, ∃ members, definition = .object members)
    (hreadable : CanBeRead list managed definitions) (hdata : record.data.HasMembers)
    (hmanaged : ability.allows .manage (.record record) = .ok managed) :
    ∃ names, ability.Shows action list record definitions? definitions managed names := by
  obtain ⟨names, hnames, hexact⟩ := exists_openFields hobjects hreadable hdata hmanaged
  have hfields : ability.accessibleFields (.text action.name) (.record record) definitions? =
      .ok names := by
    rw [accessibleFields_eq haction, hconsulted]
    exact mapError_eq_ok.mpr hnames
  exact ⟨names, hfields, hexact, accessibleData_eq hdata hfields⟩

/-- Names that are the same show the same data. -/
theorem Shows.data_eq {other : Record} {others? : Option Value} {others : List Value}
    {otherManaged : Bool} {otherNames : List String}
    (h : ability.Shows action list record definitions? definitions managed names)
    (hother : ability.Shows action list other others? others otherManaged otherNames)
    (hnames : ∀ name, name ∈ otherNames ↔ name ∈ names)
    (hdata : other.data.asMembers.filter (fun member => names.contains member.1) =
      record.data.asMembers.filter fun member => names.contains member.1) :
    ability.accessibleData (.text action.name) (.record other) others? =
      ability.accessibleData (.text action.name) (.record record) definitions? := by
  have hcontains : ∀ name, otherNames.contains name = names.contains name := by
    intro name
    rw [Bool.eq_iff_iff, List.contains_iff_mem, List.contains_iff_mem, hnames]
  rw [hother.data, h.data, ← hdata]
  simp only [hcontains]

/-- **Definitions in another order** show the same of the same data. -/
theorem Shows.eq_of_perm {other : Record} {others? : Option Value} {others : List Value}
    {otherNames : List String}
    (h : ability.Shows action list record definitions? definitions managed names)
    (hother : ability.Shows action list other others? others managed otherNames)
    (hperm : others.Perm definitions) (hsame : other.data = record.data) :
    (∀ name, name ∈ otherNames ↔ name ∈ names) ∧
      ability.accessibleData (.text action.name) (.record other) others? =
        ability.accessibleData (.text action.name) (.record record) definitions? := by
  have hnames : ∀ name, name ∈ otherNames ↔ name ∈ names := by
    intro name
    simp only [h.exact, hother.exact, Record.HasField, Accessible, hperm.mem_iff, hsame]
  exact ⟨hnames, h.data_eq hother hnames (by rw [hsame])⟩

/-! ### Data that is changed -/

/-- A member that is put in under a name leaves the others as they are. -/
theorem filter_put {members : Members} {key : String} {value : Value} {keeps : String → Bool}
    (hkey : keeps key = false) :
    (members.put key value).filter (fun member => keeps member.1) =
      members.filter fun member => keeps member.1 := by
  induction members with
  | nil => simp [Members.put, hkey]
  | cons first rest ih =>
    rw [Members.put]
    split
    · next hsame => simp [hsame, hkey]
    · rw [List.filter_cons, List.filter_cons, ih]

/-- It is a member from then on, among those that were. -/
theorem exists_mem_put {members : Members} {key name : String} {value : Value} :
    (∃ member ∈ members.put key value, member.1 = name) ↔
      name = key ∨ ∃ member ∈ members, member.1 = name := by
  induction members with
  | nil => simp [Members.put, eq_comm]
  | cons first rest ih =>
    rw [Members.put]
    split
    · next hsame => simp [hsame, eq_comm]
    · rw [List.exists_mem_cons_iff, List.exists_mem_cons_iff, ih, or_left_comm]

/-- With another value under the name of a field a record has the same fields. -/
theorem hasField_put {key : String} {value : Value} (hkey : record.HasField definitions key) :
    Record.HasField { record with data := .object (Members.put record.data.asMembers key value) }
      definitions name ↔ record.HasField definitions name := by
  constructor
  · rintro (hdefined | hmember)
    · exact .inl hdefined
    · rcases exists_mem_put.mp hmember with rfl | hmember
      · exact hkey
      · exact .inr hmember
  · rintro (hdefined | hmember)
    · exact .inl hdefined
    · exact .inr (exists_mem_put.mpr (.inr hmember))

/-- **What is hidden may be changed**, and the same is shown. -/
theorem Shows.eq_of_put {key : String} {value : Value} {otherNames : List String}
    (h : ability.Shows action list record definitions? definitions managed names)
    (hother : ability.Shows action list
      { record with data := .object (Members.put record.data.asMembers key value) }
      definitions? definitions managed otherNames)
    (hfield : record.HasField definitions key) (hhidden : key ∉ names) :
    ability.accessibleData (.text action.name)
        (.record { record with data := .object (Members.put record.data.asMembers key value) })
        definitions? =
      ability.accessibleData (.text action.name) (.record record) definitions? := by
  refine h.data_eq hother (fun name => ?_) (filter_put (by simpa using hhidden))
  rw [h.exact, hother.exact]
  exact and_congr_left fun _ => hasField_put hfield

/-- **What is accessible, exactly.** Let some definitions be consulted for a record, for reading
or updating it. Its accessible fields fail to be told if the ability fails to tell whether it
manages the record. Otherwise, and if the role lists that matter can be read, they are all its
fields if it does, and those without a definition that is closed to the principal if it does not;
and the accessible data is what the data holds under their names, in the same order. Neither
depends on the order of the definitions. If the ability does not manage the record, what the
data holds under the name of a hidden field does not show, whatever it is changed to. -/
theorem accessibleFields_exact (haction : fieldList? action = some list)
    (hconsulted : consultedDefinitions (.record record) definitions? = .ok definitions)
    (hobjects : ∀ definition ∈ definitions, ∃ members, definition = .object members)
    (hdata : record.data.HasMembers) :
    (∀ fault, ability.allows .manage (.record record) = .error fault →
      ability.accessibleFields (.text action.name) (.record record) definitions? =
        .error (.fault fault)) ∧
    ∀ managed, ability.allows .manage (.record record) = .ok managed →
      CanBeRead list managed definitions →
      ∃ names, ability.Shows action list record definitions? definitions managed names ∧
        (∀ (other : Record) others? others,
          consultedDefinitions (.record other) others? = .ok others → others.Perm definitions →
          other.data = record.data → ability.allows .manage (.record other) = .ok managed →
          (∃ otherNames,
            ability.accessibleFields (.text action.name) (.record other) others? = .ok otherNames ∧
            ∀ name, name ∈ otherNames ↔ name ∈ names) ∧
          ability.accessibleData (.text action.name) (.record other) others? =
            ability.accessibleData (.text action.name) (.record record) definitions?) ∧
        ∀ key value, record.HasField definitions key → key ∉ names → ∀ changed : Record,
          changed = { record with data := .object (Members.put record.data.asMembers key value) } →
          ability.allows .manage (.record changed) = .ok false →
          ability.accessibleData (.text action.name) (.record changed) definitions? =
            ability.accessibleData (.text action.name) (.record record) definitions? := by
  refine ⟨fun fault hfault => ?_, fun managed hmanaged hreadable => ?_⟩
  · rw [accessibleFields_eq haction, hconsulted]
    exact mapError_eq_error.mpr ⟨fault, openFields_eq_error hobjects hdata hfault, rfl⟩
  · obtain ⟨names, hshows⟩ := exists_shows haction hconsulted hobjects hreadable hdata hmanaged
    refine ⟨names, hshows, fun other others? others hothers hperm hsame hother => ?_,
      fun key value hfield hhidden changed hchanged hother => ?_⟩
    · obtain ⟨otherNames, hotherShows⟩ := exists_shows haction hothers
        (fun definition hdefinition => hobjects definition (hperm.mem_iff.mp hdefinition))
        (fun hnot definition hdefinition =>
          hreadable hnot definition (hperm.mem_iff.mp hdefinition))
        (by rwa [hsame]) hother
      obtain ⟨hnames, hdata⟩ := hshows.eq_of_perm hotherShows hperm hsame
      exact ⟨⟨otherNames, hotherShows.fields, hnames⟩, hdata⟩
    · -- a hidden field is one of a record that is not managed
      have hnot : managed = false := Bool.eq_false_iff.mpr fun htrue =>
        hhidden ((hshows.exact key).mpr ⟨hfield, .inl htrue⟩)
      subst hchanged hnot
      have hstill : consultedDefinitions
          (.record { record with data := .object (Members.put record.data.asMembers key value) })
          definitions? = .ok definitions := by
        rw [← hconsulted]
        cases definitions? <;> rfl
      obtain ⟨otherNames, hotherShows⟩ :=
        exists_shows haction hstill hobjects hreadable (.inr ⟨_, rfl⟩) hother
      exact hshows.eq_of_put hotherShows hfield hhidden

/-- A field is defined twice, once for the role of a principal and once for another. It is not
shown; that a definition without a name lists another role makes no difference. -/
theorem accessibleFields_exact_twice :
    let listing (name : Value) (role : Uuid) : Value :=
      .object [("name", name), ("permissions", .object [("canSee", .list [.text role.text])])]
    let definitions : List Value :=
      [listing (.text "pay") 2, listing .null 9, listing (.text "pay") 9]
    let ability : Ability := { principal := some { userId := 1, roles := [{ id := 2 }] } }
    let record : Record := { data := .object [("pay", .integer 5), ("note", .text "x")] }
    ∃ names, ability.accessibleFields (.text "read") (.record record)
        (some (.list definitions)) = .ok names ∧
      "pay" ∉ names ∧
      ability.accessibleData (.text "read") (.record record) (some (.list definitions)) =
        .ok [("note", .text "x")] := by
  intro listing definitions ability record
  have hlists : ∀ name role other,
      other ∈ [role.text] ↔ FieldDefinition.Lists "canSee" (listing name role) other := by
    intro name role other
    have hitems : (((listing name role).get "permissions").get "canSee").items? =
        some [.text role.text] := rfl
    simp [FieldDefinition.Lists, hitems, Value.plain, eq_comm]
  have hobjects : ∀ definition ∈ definitions, ∃ members, definition = .object members := by
    simp [definitions, listing]
  have hreadable : CanBeRead "canSee" false definitions := by
    have hlisting : ∀ name role, IsReadable "canSee" (listing name role) := fun name role =>
      { permissions := .inr ⟨_, rfl⟩, listed := .inr ⟨_, rfl⟩ }
    intro _
    simp [definitions, hlisting]
  have haction : fieldList? .read = some "canSee" := rfl
  have hconsulted : consultedDefinitions (.record record) (some (.list definitions)) =
      .ok definitions := rfl
  have hmanaged : ability.allows .manage (.record record) = .ok false := rfl
  obtain ⟨names, hshows, -⟩ := (accessibleFields_exact haction hconsulted hobjects
    (.inr ⟨_, rfl⟩)).2 false hmanaged hreadable
  have hpay : "pay" ∉ names := by
    intro hmem
    have hopen : IsOpenTo ability.principal "canSee" (listing (.text "pay") 9) :=
      ((hshows.exact "pay").mp hmem).2.resolve_left nofun _ (by simp [definitions]) ⟨rfl, rfl⟩
    exact (closedTo_eq_true_iff (hlists _ _)).mp rfl hopen
  have hnote : "note" ∈ names := by
    refine (hshows.exact "note").mpr ⟨.inr ⟨("note", .text "x"), ?_, rfl⟩, .inr ?_⟩
    · simp [record, Value.asMembers]
    · -- no definition names the field
      simp [definitions, listing, Names, Value.get, Value.get?, Members.get?, Value.isEmpty,
        Value.plain]
  refine ⟨names, hshows.fields, hpay, hshows.data.trans ?_⟩
  simp [record, Value.asMembers, hpay, hnote]

end Ability

end Fields

end Clearance
