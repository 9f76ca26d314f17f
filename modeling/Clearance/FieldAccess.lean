import Clearance.Ability.Request
import Clearance.Document.Access

/-!
# Access to fields

The definitions of fields that govern a record are stored with its resource, or
with its form when it has no resource. A definition may carry role lists for
reading and updating; a field with a non-empty list is open to the roles listed
there, and every other field is open to all. Whoever manages the record may use
all its fields.

Definitions are stored documents and may have any shape. They are read in a fixed
order, so that of several faults the same one is always reported: the names of
the definitions, the data of the record, the question whether it is managed, and
last the role lists.
-/

namespace Clearance

/-- The role list of a definition that is consulted for an action. -/
def fieldList? : Action → Option String
  | .read => some "canSee"
  | .update => some "canUpdate"
  | .create | .delete | .manage => none

namespace Value

/-- The items of a document, none if it counts as missing. -/
def itemsOrNone (value : Value) : Except Fault (List Value) :=
  if value.isEmpty then .ok []
  else
    match value.items? with
    | some items => .ok items
    | none => .error .wrongShape

/-- The members of a document, none if it counts as missing. -/
def membersOrNone (value : Value) : Except Fault (List (String × Value)) :=
  match value with
  | .object members => .ok members
  | value => if value.isEmpty then .ok [] else .error .missingAttribute

/-- The member of an object called `name`, nothing if there is none; a document
of another shape has no members. -/
def member (value : Value) (name : String) : Except Fault Value :=
  match value with
  | .object members => .ok ((Members.get? members name).getD .null)
  | _ => .error .missingAttribute

end Value

/-! ### Definitions of fields -/

/-- Definitions that are given along: the items of a document. -/
def givenDefinitions (given : Value) : Except Fault (List Value) :=
  match given.items? with
  | some items => .ok items
  | none => .error .wrongShape

/-- The name in a definition, as text; a definition may have none. -/
def definitionName (definition : Value) : Except Fault (Option String) :=
  (definition.member "name").map fun name => if name.isEmpty then none else some name.plain

/-- The roles in one of the lists of a definition, as text. -/
def definitionRoles (list : String) (definition : Value) : Except Fault (List String) := do
  let permissions ← (← definition.member "permissions").membersOrNone
  let listed ← ((Members.get? permissions list).getD .null).itemsOrNone
  return listed.map Value.plain

/-- The **definitions** that govern an object: those of its resource or else of its
form. Only records have any. -/
def Entity.fieldDefinitions : Entity → Except Fault (List Value)
  | .record r =>
    match r.resource, r.form with
    | some owner, _ => owner.fields.itemsOrNone
    | none, some owner => owner.fields.itemsOrNone
    | none, none => .ok []
  | _ => .ok []

/-! ### Who may use a field -/

/-- Whether a definition closes its field to a principal: roles are listed, and
the principal holds none of them. Without a principal, nobody's roles count. -/
def closedTo (principal : Option Principal) (roles : List String) : Bool :=
  let mine := ((principal.map (·.roleIds)).getD []).map Uuid.text
  !roles.isEmpty && !roles.any mine.contains

/-- The name of the field that a definition closes to a principal, if it closes
one. -/
def closedName (principal : Option Principal) (list : String) (definition : Value) :
    Except Fault (Option String) := do
  match ← definitionName definition with
  | none => return none
  | some name =>
    let roles ← definitionRoles list definition
    return if closedTo principal roles then some name else none

/-- The names of all fields that are defined for an object or have a value in its
data. -/
def fieldNames (entity : Entity) (definitions : List Value) : Except Fault (List String) := do
  let defined ← definitions.mapM definitionName
  let valued ← entity.data.membersOrNone
  return defined.filterMap id ++ valued.map (·.1)

namespace Ability

variable (ability : Ability)

/-- The names of the fields of an object that an ability may use for an action
whose role lists have the name `list`. -/
def openFields (list : String) (entity : Entity) (definitions : List Value) :
    Except Fault (List String) := do
  let names ← fieldNames entity definitions
  if ← ability.check .manage entity.kind entity then return names
  else
    let closed ← definitions.mapM (closedName ability.principal list)
    let closed := closed.filterMap id
    return names.filter fun name => !closed.contains name

/-- The names of the **accessible fields** of an object for a named action. The
definitions are those that govern the object unless others are given. -/
def accessibleFields (action : Value) (entity : Entity) (definitions? : Option Value) :
    Except AccessError (List String) := do
  let action ← Action.read? action
  match fieldList? action with
  | none => throw (.noFieldAccess action)
  | some list =>
    let definitions :=
      match definitions? with
      | some given => givenDefinitions given
      | none => entity.fieldDefinitions
    (definitions.bind (ability.openFields list entity)).mapError .fault

/-- The **accessible data** of an object: the members of its data whose fields are
accessible, in their order. -/
def accessibleData (action : Value) (entity : Entity) (definitions? : Option Value) :
    Except AccessError (List (String × Value)) := do
  let names ← ability.accessibleFields action entity definitions?
  let members ← entity.data.membersOrNone.mapError .fault
  return members.filter fun member => names.contains member.1

end Ability

end Clearance
