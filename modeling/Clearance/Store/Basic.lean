import Clearance.Ability.Basic
import Clearance.Engine.Basic
import Clearance.Entity.Snapshot

/-!
# The store

A **store** holds objects. Everything that is read from it comes in ascending
order of identifiers, each object once, so that an answer does not depend on the
order in which the objects were put in.

What is stored are rows that name other rows. Loading a row brings along what it
names: a record its form and its resource, a user the roles it holds. A name
without a row brings along nothing. A record that has been loaded keeps to the form and
the resource it was loaded with, even when it is moved to others.

A store can be *closed*. Nothing can be looked up in it, and asking is a fault. An open store
has its rows searched by an engine (`Clearance.Engine`), whichever that is.
-/

namespace Clearance

/-- A **store** of loaded objects. -/
structure Store where
  /-- The objects, in any order. -/
  entities : List Entity := []
  /-- The flags that have ever been mentioned. -/
  flags : List FlagRow := []
  /-- Whether anything can be looked up. -/
  isOpen : Bool := true
  /-- What searches the rows. -/
  engine : Engine := {}

namespace Store

/-! ### Order -/

/-- Whether an object comes before another: by identifier, one without any
first. -/
def before (a b : Entity) : Bool :=
  match a.id, b.id with
  | none, _ => true
  | some _, none => false
  | some u, some v => u.number ≤ v.number

/-- An object put into an ordered list, before those it does not follow. -/
def insertOrdered (entity : Entity) : List Entity → List Entity
  | [] => [entity]
  | other :: rest =>
    if before entity other then entity :: other :: rest else other :: insertOrdered entity rest

/-- Objects in **ascending order** of their identifiers. -/
def ordered (entities : List Entity) : List Entity :=
  entities.foldr insertOrdered []

/-- Inserting adds one object and keeps the others. -/
theorem mem_insertOrdered {a b : Entity} {entities : List Entity} :
    b ∈ insertOrdered a entities ↔ b = a ∨ b ∈ entities := by
  induction entities with
  | nil => simp [insertOrdered]
  | cons c rest ih =>
    unfold insertOrdered
    split
    · simp
    · simp only [List.mem_cons, ih]
      exact or_left_comm

/-- Ordering keeps the objects. -/
@[simp] theorem mem_ordered {a : Entity} {entities : List Entity} :
    a ∈ ordered entities ↔ a ∈ entities := by
  induction entities with
  | nil => simp [ordered]
  | cons b rest ih =>
    have : ordered (b :: rest) = insertOrdered b (ordered rest) := rfl
    rw [this, mem_insertOrdered, ih, List.mem_cons]

/-! ### Loading rows -/

/-- The row of a kind among some rows with an identifier. -/
def rowIn? (kind : Kind) (rows : List Entity) (id : Uuid) : Option Entity :=
  rows.find? fun row => row.kind == kind && row.id == some id

/-- The role among some rows with an identifier. -/
def roleIn? (rows : List Entity) (id : Uuid) : Option Role :=
  rows.findSome? fun row =>
    match row with
    | .role r => if r.id = some id then some r else none
    | _ => none

/-- The roles among some rows with the identifiers given, in that order. -/
def rolesIn (rows : List Entity) (ids : List Uuid) : List Role :=
  ids.filterMap (roleIn? rows)

/-- The identifiers of the form and of the resource that a record has been loaded
with. -/
abbrev Link := Option Uuid × Option Uuid

/-- The link of a record that is loaded for the first time. -/
def linkOf (rows : List Entity) : Entity → Link
  | .record r =>
    ((r.formId.bind (rowIn? .form rows)).bind (·.id),
      (r.resourceId.bind (rowIn? .resource rows)).bind (·.id))
  | _ => (none, none)

/-- A row with what it names among some rows, a record with what it is linked to. -/
def loadLinked (rows : List Entity) (link : Link) : Entity → Entity
  | .record r =>
    .record { r with form := link.1.bind (rowIn? .form rows)
                     resource := link.2.bind (rowIn? .resource rows) }
  | .user u => .user { u with roles := rolesIn rows (u.roles.filterMap (·.id)) }
  | row => row

/-- A row with what it names among some rows. -/
def loadRow (rows : List Entity) (row : Entity) : Entity :=
  loadLinked rows (linkOf rows row) row

/-- A row loaded again: a record keeps what it was linked to before. -/
def loadAgain (rows : List Entity) (before : Option Entity) (row : Entity) : Entity :=
  match before with
  | some (.record r) => loadLinked rows (r.form.bind (·.id), r.resource.bind (·.id)) row
  | _ => loadRow rows row

/-- The **store** of some rows, each loaded. -/
def ofRows (rows : List Entity) : Store where
  entities := rows.map (loadRow rows)

/-- Loading changes neither kind nor identifier. -/
theorem id_loadRow (rows : List Entity) (row : Entity) : (loadRow rows row).id = row.id := by
  cases row <;> rfl

/-- Loading keeps the kind. -/
theorem kind_loadRow (rows : List Entity) (row : Entity) : (loadRow rows row).kind = row.kind := by
  cases row <;> rfl

/-! ### Lookups -/

variable (store : Store)

/-- The stored object of a kind with an identifier. -/
def find? (kind : Kind) (id : Uuid) : Option Entity :=
  rowIn? kind store.entities id

/-- The stored objects of a kind, in ascending order. -/
def ofKind (kind : Kind) : List Entity :=
  ordered (store.entities.filter fun entity => entity.kind == kind)

/-- The stored objects of a kind that pass a test, in ascending order. -/
def ofKindWhere (kind : Kind) (test : Entity → Bool) : List Entity :=
  ordered (store.entities.filter fun entity => entity.kind == kind && test entity)

/-- A user with the roles in ascending order of their identifiers. -/
def withOrderedRoles (user : User) : User :=
  let ids := Uuid.setOf (user.roles.filterMap (·.id))
  { user with roles := ids.filterMap fun id => user.roles.find? (·.id == some id) }

/-- Nothing, if the store is open. -/
def reached : Except Fault Unit :=
  if store.isOpen then .ok () else .error .missingAttribute

/-- The **principal** that a stored user is. -/
def loadPrincipal (userId : Uuid) : Except AccessError Principal := do
  store.reached.mapError .fault
  match store.find? .user userId with
  | some (.user u) => return Principal.ofUser (withOrderedRoles u) userId
  | _ => throw (.notFound .user userId)

/-! ### Selecting -/

/-- The stored objects of a kind that a filter **selects**, in ascending order, unless the
search fails. -/
def select (kind : Kind) (filter : Filter) : Except Fault (List Entity) := do
  store.reached
  let rows := store.ofKind kind
  match store.engine.fault? filter rows with
  | some fault => throw fault
  | none => return rows.filter filter.selects

/-- The stored objects of a kind that a condition selects. -/
def selectCondition (kind : Kind) (condition : Condition) : Except Fault (List Entity) := do
  store.reached
  let filter ← condition.filter kind
  store.select kind filter

/-- The stored objects of a kind on which an ability allows an action, in ascending
order. -/
def accessible (ability : Ability) (action : Action) (kind : Kind) :
    Except Fault (List Entity) := do
  store.reached
  let filter ← ability.filter action kind
  store.select kind filter

/-- The filter of the records of a form. -/
def ofForm (formId : Option Uuid) : Filter :=
  match formId with
  | some id => .equals "form_id" (.text id.text)
  | none => .absent "form_id"

/-- Whether an object is a record of a form. A record without a form is one of no form. -/
def isRecordOf (formId : Option Uuid) : Entity → Bool
  | .record r => r.formId == formId
  | _ => false

/-- The records of a form on which an ability allows an action, in ascending order. -/
def accessibleRecords (ability : Ability) (action : Action) (formId : Option Uuid) :
    Except Fault (List Entity) := do
  store.reached
  let filter ← ability.filter action .record
  store.select .record (.conjunction [filter, ofForm formId])

/-- The objects of a kind on which an ability allows an action, once for every record of a
form. Of the records themselves it is those of the form. -/
def accessibleBeside (ability : Ability) (action : Action) (kind : Kind)
    (formId : Option Uuid) : Except Fault (List Entity) :=
  if kind = .record then store.accessibleRecords ability action formId
  else
    (store.accessible ability action kind).map fun found =>
      let count := (store.entities.filter (isRecordOf formId)).length
      found.flatMap (List.replicate count)

end Store

end Clearance
