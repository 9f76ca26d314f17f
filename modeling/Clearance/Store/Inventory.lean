import Clearance.Store.Insertion

/-!
# Inventories

An **inventory** holds described things by name, and changes with their descriptions. The
things may also be put into a store. Then they are what the store gives back, together
with what they mention, and a record keeps to the form and the resource that it was first
loaded with.

A description that cannot be followed makes no inventory, and a change that cannot be made
leaves it as it is.
-/

namespace Clearance

/-- An **inventory** of described things. -/
structure Inventory where
  /-- Whether the things are put into a store. -/
  isStored : Bool
  /-- The descriptions, by name. -/
  descriptions : List (String × Value) := []
  /-- The descriptions of roles, in the order in which they were given. -/
  roles : List Value := []
  /-- The objects as they were described at first, for what they mention. -/
  first : List Entity := []
  /-- The things, by name. -/
  things : Described.Named := []
  /-- The store. -/
  store : Store := { isOpen := false }

/-- Why an inventory cannot be made or changed. -/
inductive Inventory.Problem
  /-- A text in the place of an identifier spells none. -/
  | id (error : Uuid.ReadError)
  /-- A value cannot be stored. -/
  | fault (fault : Fault)

namespace Inventory

/-! ### Things and their descriptions -/

/-- A thing as it is loaded from some rows, after it has been loaded `before`. -/
def loaded (rows : List Entity) (before : Option Described) : Described → Described
  | .object entity => .object (Store.loadAgain rows (before.bind Described.object?) entity)
  | group => group

/-- An inventory whose things are as they are described. -/
def refreshed (inventory : Inventory) : Inventory :=
  let made := Described.all (inventory.descriptions.map fun (name, value) =>
    (name, Described.withSharedRoles inventory.roles value))
  if inventory.isStored then
    let described := Described.objects made
    let rows := Store.rowsOf described (Store.mentioned (described ++ inventory.first))
    let things := made.map fun (name, thing) =>
      (name, loaded rows (inventory.things.lookup name) thing)
    let mentioned := (rows.drop described.length).map (Store.loadRow rows)
    { inventory with
      things
      store := { entities := Described.objects things ++ mentioned
                 flags := inventory.first.flatMap Store.flagsOf } }
  else { inventory with things := made }

/-- Nothing, if a text in every place of an identifier spells one. -/
def spelled (value : Value) : Except Problem Unit :=
  match Value.idFault? (Described.idsIn value) with
  | some error => .error (.id error)
  | none => .ok ()

/-- Descriptions by the names that they give. -/
def byName (values : List Value) : List (String × Value) :=
  Described.resolvedAll [] (values.map fun value => ((value.get "ref").asText, value))

/-- The **inventory** of what some documents describe. -/
def ofDocuments (isStored : Bool) (values : List Value) : Except Problem Inventory := do
  values.forM spelled
  let rows ←
    if isStored then (values.mapM Store.rowDescription).mapError .fault else pure values
  let inventory : Inventory :=
    { isStored
      descriptions := byName rows
      roles := values.flatMap Described.rolesIn
      first := Described.objects (Described.all (byName values)) }
  return inventory.refreshed

/-! ### Changes -/

/-- A description with a member changed. What is said of a role is what was said of it
last. -/
def changedDescription (inventory : Inventory) (name : String) (change : Value → Value)
    (value : Value) : Except Problem Value := do
  let given := change (value.get name)
  spelled (.object [(name, given)])
  let taken ←
    if inventory.isStored then (Store.changedTo value name given).mapError .fault else pure given
  return .object
    (Members.put (Described.withSharedRoles inventory.roles value).asMembers name taken)

/-- An inventory with a member of the description called `name` changed. -/
def change (inventory : Inventory) (name member : String) (change : Value → Value) :
    Except Problem Inventory := do
  let descriptions ← inventory.descriptions.mapM fun (other, value) =>
    if other = name then
      (inventory.changedDescription member change value).map fun value => (other, value)
    else pure (other, value)
  let said := (descriptions.filter (·.1 == name)).map (·.2)
  let roles := said.filter fun value => (value.get "kind").asText == Kind.role.name
  return { inventory with descriptions, roles := inventory.roles ++ roles }.refreshed

/-- Whether a description is that of the user with an identifier. -/
def describesUser (id : Uuid) (value : Value) : Bool :=
  (value.get "kind").asText == Kind.user.name && (value.get "id").asId? == some id

/-- An inventory after a stored user has been loaded, whose roles are in order from then
on. -/
def reloadUser (inventory : Inventory) (id : Uuid) : Inventory :=
  { inventory with
    descriptions := inventory.descriptions.map fun (name, value) =>
      (name, if describesUser id value then Store.reloadedUser value else value) }.refreshed

end Inventory

end Clearance
