import Clearance.Column.Stored
import Clearance.Entity.Description
import Clearance.Store.Basic

/-!
# Putting objects into a store

A described object is **put into a store** as a row: columns that have no value take their
default, every value comes back as its column stores it, and the roles of a user come back
in ascending order. A value that its column cannot store is a fault.

The roles of users, the channels of roles and the users who have seen a notification are
rows as well, even when no description of their own is given; a row that is described
counts before one that is only mentioned.
-/

namespace Clearance.Store

/-- The columns of a kind with their defaults; a user is called by the identifier. -/
def columnDefaults (kind : Option Kind) (id : Option Uuid) : List (String × Value) :=
  match kind with
  | none => [("title", .text "")]
  | some .application => [("name", .text ""), ("status", .text "pending")]
  | some .form => [("name", .text ""), ("core", .flag false), ("fields", .list [])]
  | some .resource => [("name", .text ""), ("fields", .list [])]
  | some .record => [("archived", .flag false), ("data", .object [])]
  | some .role | some .channel => [("title", .text "")]
  | some .user => [("username", .ofId? id)]
  | some .notification => [("action", .text "")]
  | some .page | some .step | some .workflow | some .dashboard | some .apiConfiguration
  | some .referenceData => [("name", .text "")]
  | _ => []

/-- The columns that store documents, where nothing is a value of its own. -/
def documentColumns : List String := ["fields", "data"]

/-- The members of a description with a default filled in. -/
def fillDefault (members : Members) (column : String × Value) : Members :=
  match members.get? column.1 with
  | none => members ++ [column]
  | some .null =>
    if documentColumns.contains column.1 then members else members.put column.1 column.2
  | some _ => members

/-- The member of a description called `name` changed, if it is there. -/
def changeMember (name : String) (change : Value → Value) (value : Value) : Value :=
  match value with
  | .object members =>
    match Members.get? members name with
    | some old => .object (Members.put members name (change old))
    | none => value
  | _ => value

/-- The columns of a described kind; what is no kind has a title. -/
def columnsOf (kind : Option Kind) : List (String × Column) :=
  match kind with
  | some kind => kind.columns.filter (·.1 != "kind")
  | none => [("title", .text)]

/-- The member of a description that is stored in a column as it comes back. -/
def reloadMember (value : Value) (column : String × Column) : Except Fault Value :=
  match value.get? column.1 with
  | some old => (column.2.reload old).map fun new => changeMember column.1 (fun _ => new) value
  | none => .ok value

/-- A described entry of a role list as it comes back. -/
def reloadedGrants (grants : Value) : Value :=
  .list (grants.asItems.map (changeMember "access" Value.reloaded))

/-- The items of a list that describe roles, each role once, in ascending order of their
identifiers. -/
def orderedRoles (roles : Value) : Value :=
  let items := roles.asItems
  let ids := Uuid.setOf (items.filterMap fun role => (role.get "id").asId?)
  .list (ids.filterMap fun id => items.find? fun role => (role.get "id").asId? == some id)

/-- The description of a user as it is when the user has just been loaded. -/
def reloadedUser (value : Value) : Value :=
  changeMember "roles" orderedRoles value

/-- The description of the row that a described object is put in as. -/
def rowDescription (value : Value) : Except Fault Value := do
  let kind := Kind.ofName? (value.get "kind").asText
  let filled := Value.object 
    ((columnDefaults kind (value.get "id").asId?).foldl fillDefault value.asMembers)
  let stored ← (columnsOf kind).foldlM reloadMember filled
  return reloadedUser (changeMember "grants" reloadedGrants stored)

/-- Whether a column of a kind needs a value: those that have a default do, and they take
it only when the row is put in. -/
def needsValue (kind : Option Kind) (name : String) : Bool :=
  ((columnDefaults kind none).lookup name).isSome

/-- What the member of a described object called `name` holds after it has been changed to
a value. A document is as it comes back, any other value stays as it is given. -/
def changedTo (description : Value) (name : String) (value : Value) : Except Fault Value :=
  let kind := Kind.ofName? (description.get "kind").asText
  match (columnsOf kind).lookup name, value with
  | some .document, _ => Column.document.reload value
  | some .text, .null | some .flag, .null =>
    if needsValue kind name then .error .unfilled else .ok .null
  | some .text, _ => (Column.text.store value).map fun _ => value
  | some .flag, _ => (Column.flag.store value).map fun _ => value
  | _, _ => .ok value

/-- The row of a channel that is only mentioned. -/
def mentionedChannel (id : Uuid) : Entity :=
  .channel { id := some id, title := .text "" }

/-- The row of a user that is only mentioned. -/
def mentionedUser (id : Uuid) : Entity :=
  .user { id := some id, username := .ofId id }

/-- The rows that an object mentions. -/
def mentionedBy : Entity → List Entity
  | .user u =>
    u.roles.map (fun role => .role { role with title := role.title.given?.getD (.text "") }) ++
      u.roles.flatMap fun role => role.channelIds.map mentionedChannel
  | .role r => r.channelIds.map mentionedChannel
  | .notification n => n.seenBy.map mentionedUser
  | _ => []

/-- Rows with one more, unless there is one of its kind with its identifier. -/
def addRowOnce (rows : List Entity) (row : Entity) : List Entity :=
  if rows.any fun other => other.kind == row.kind && other.id == row.id then rows
  else rows ++ [row]

/-- The rows that some objects mention. -/
def mentioned (entities : List Entity) : List Entity :=
  (entities.flatMap mentionedBy).foldl addRowOnce []

/-- The flags that an object is described with. -/
def flagsOf : Entity → List FlagRow
  | .role r => r.flags
  | .user u => u.roles.flatMap (·.flags)
  | _ => []

/-- The rows of some objects and of what is mentioned besides. -/
def rowsOf (entities mentioned : List Entity) : List Entity :=
  mentioned.foldl addRowOnce entities

end Clearance.Store
