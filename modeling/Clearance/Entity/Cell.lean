import Clearance.Document.Operand
import Clearance.Entity.Basic

/-!
# Attributes of objects

Conditions look into objects by the **names of their attributes**. Each kind has
a fixed list of them, and every attribute holds a *cell*: a column of the
object's row, a relationship to other objects, or nothing. An attribute that a
kind does not have is an empty cell of its objects, but it has no column, so no
filter can be written for it.

A cell is compared with an *operand*, an identifier or a plain value.
-/

namespace Clearance

/-- What the attributes of a kind are stored in. -/
inductive Column
  | id | text | flag | document | related | parts | loaded
deriving DecidableEq, Repr

/-- What an attribute of an object holds. -/
inductive Cell
  /-- Nothing. -/
  | null
  /-- An identifier. -/
  | id (id : Uuid)
  /-- A document, in a column of some sort. -/
  | content (column : Column) (document : Value)
  /-- The objects of a relationship, by their identifiers. -/
  | related (ids : List Uuid)
  /-- Rows that are part of the object and have no identifiers of their own. -/
  | parts (count : Nat)
  /-- One object that was loaded along. -/
  | loaded

namespace Cell

/-! ### Cells of columns -/

/-- The cell of a column of identifiers. -/
def ofId (id : Option Uuid) : Cell :=
  (id.map Cell.id).getD null

/-- The cell of an object that may have been loaded along. -/
def ofLoaded (isLoaded : Bool) : Cell :=
  if isLoaded then loaded else null

/-! ### Comparison -/

/-- Whether a cell **holds** the operand. A document that is nothing holds none. -/
def equals : Cell → Operand → Bool
  | .content _ .null, _ => false
  | .id a, .id b => a == b
  | .content _ a, .value b => a.same b
  | .related ids, .value (.list items) => ids.isEmpty && items.isEmpty
  | .parts count, .value (.list items) => count == 0 && items.isEmpty
  | _, _ => false

/-- Nothing holds no operand. -/
@[simp] theorem equals_null (operand : Operand) : null.equals operand = false := by
  cases operand <;> rfl

end Cell

/-! ### The attributes of a kind -/

/-- The attributes of the kinds that carry role lists. -/
def Listed.columns : List (String × Column) :=
  [("id", .id), ("kind", .text), ("name", .text), ("grants", .parts)]

/-- The attributes of a kind, with what they are stored in. -/
def Kind.columns : Kind → List (String × Column)
  | .application => Listed.columns ++ [("status", .text)]
  | .page =>
    Listed.columns ++ [("application_id", .id), ("content_kind", .text), ("content_id", .id)]
  | .step => Listed.columns ++ [("workflow_id", .id), ("content_kind", .text), ("content_id", .id)]
  | .workflow | .dashboard | .apiConfiguration | .referenceData => Listed.columns
  | .form => Listed.columns ++ [("resource_id", .id), ("core", .flag), ("fields", .document)]
  | .resource => Listed.columns ++ [("fields", .document)]
  | .record =>
    [("id", .id), ("form_id", .id), ("resource_id", .id), ("data", .document), ("archived", .flag),
      ("form", .loaded), ("resource", .loaded), ("groups", .related)]
  | .role =>
    [("id", .id), ("title", .text), ("application_id", .id), ("permissions", .parts),
      ("channels", .related)]
  | .channel => [("id", .id), ("title", .text), ("application_id", .id)]
  | .user =>
    [("id", .id), ("username", .text), ("roles", .related), ("groups", .related),
      ("position_attributes", .parts)]
  | .notification => [("id", .id), ("action", .text), ("channel_id", .id), ("seen_by", .related)]
  | .pullJob | .setting | .template | .distributionList | .customNotification
  | .emailNotification => []

/-- What the attribute called `name` is stored in, if the kind has it. -/
def Kind.column? (kind : Kind) (name : String) : Option Column :=
  kind.columns.lookup name

/-! ### The cells of an object -/

/-- The cells that objects with role lists share. -/
def Listed.cells (kind : Kind) (listed : Listed) : List (String × Cell) :=
  [("id", .ofId listed.id), ("kind", .content .text (.text kind.name)),
    ("name", .content .text listed.name), ("grants", .parts listed.grants.length)]

/-- The cells of an object, by the names of its attributes. -/
def Entity.cells : Entity → List (String × Cell)
  | application listed status => listed.cells .application ++ [("status", .content .text status)]
  | page listed applicationId display =>
    listed.cells .page ++ [("application_id", .ofId applicationId),
      ("content_kind", .content .text display.kind), ("content_id", .ofId display.id)]
  | step listed workflowId display =>
    listed.cells .step ++ [("workflow_id", .ofId workflowId),
      ("content_kind", .content .text display.kind), ("content_id", .ofId display.id)]
  | workflow listed => listed.cells .workflow
  | dashboard listed => listed.cells .dashboard
  | apiConfiguration listed => listed.cells .apiConfiguration
  | referenceData listed => listed.cells .referenceData
  | form f =>
    f.toListed.cells .form ++ [("resource_id", .ofId f.resourceId), ("core", .content .flag f.core),
      ("fields", .content .document f.fields)]
  | resource r => r.toListed.cells .resource ++ [("fields", .content .document r.fields)]
  | record r =>
    [("id", .ofId r.id), ("form_id", .ofId r.formId),
      ("resource_id", .ofId r.resourceId), ("data", .content .document r.data),
      ("archived", .content .flag r.archived), ("form", .ofLoaded r.form.isSome),
      ("resource", .ofLoaded r.resource.isSome), ("groups", .related r.groupIds)]
  | role r =>
    [("id", .ofId r.id), ("title", .content .text r.title),
      ("application_id", .ofId r.applicationId), ("permissions", .parts r.flags.length),
      ("channels", .related r.channelIds)]
  | channel c =>
    [("id", .ofId c.id), ("title", .content .text c.title),
      ("application_id", .ofId c.applicationId)]
  | user u =>
    [("id", .ofId u.id), ("username", .content .text u.username),
      ("roles", .related (u.roles.filterMap (·.id))), ("groups", .related u.groupIds),
      ("position_attributes", .parts u.attributes.length)]
  | notification n =>
    [("id", .ofId n.id), ("action", .content .text n.action),
      ("channel_id", .ofId n.channelId), ("seen_by", .related n.seenBy)]

/-- The cell of the attribute called `name`; an attribute the object does not
have is empty. -/
def Entity.cell (entity : Entity) (name : String) : Cell :=
  (entity.cells.lookup name).getD .null

/-- An object has the attributes of its kind, in order. -/
theorem Entity.names_cells (entity : Entity) :
    entity.cells.map (·.1) = entity.kind.columns.map (·.1) := by
  cases entity <;> rfl

end Clearance
