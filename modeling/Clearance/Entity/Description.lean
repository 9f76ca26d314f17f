import Clearance.Document.Access
import Clearance.Entity.Basic
import Clearance.Principal.Document

/-!
# Descriptions of objects

An object is **described** by a document that names its kind and gives some of its
attributes; what is not given is missing. A record may refer to its form and its
resource by the names of things described before it, and then carries them.

A role is one thing however often it is described, on its own or as a role of users, and
the last of its descriptions holds for all of them.
-/

namespace Clearance

/-- The entry of a role list that a document describes. -/
def Grant.ofDescription? (value : Value) : Option Grant :=
  (value.get "role").asId?.map fun roleId =>
    { type := (value.get "type").asText, roleId, access := (value.get "access").given? }

/-- The role that a document describes. -/
def Role.ofDescription (value : Value) : Role where
  id := (value.get "id").asId?
  title := value.get "title"
  applicationId := (value.get "application_id").asId?
  flags := (value.get "global").asTexts.map (⟨·, true⟩) ++
    (value.get "app").asTexts.map (⟨·, false⟩)
  channelIds := (value.get "channels").asIds

/-- The attribute value of a user, with its category, that a document describes. -/
def User.attributeOf? (value : Value) : Option (Uuid × String) :=
  match value.asItems with
  | [category, text] => category.asId?.map fun category => (category, text.asText)
  | _ => none

/-- The user that a document describes. -/
def User.ofDescription (value : Value) : User where
  id := (value.get "id").asId?
  username := value.get "username"
  roles := (value.get "roles").asItems.map Role.ofDescription
  groupIds := (value.get "groups").asIds
  attributes := (value.get "attributes").asItems.filterMap User.attributeOf?

/-- What the description of an object with role lists says about them. -/
def Listed.ofDescription (value : Value) : Listed where
  id := (value.get "id").asId?
  name := value.get "name"
  grants := (value.get "grants").asItems.filterMap Grant.ofDescription?

/-- What the description of a page or a step says it displays. -/
def Display.ofDescription (value : Value) : Display where
  kind := value.get "content_kind"
  id := (value.get "content_id").asId?

/-- A described thing: an object, or a group, which rules do not speak about. -/
inductive Described
  | object (entity : Entity)
  | group (id : Option Uuid) (title : Value)

namespace Described

/-- The objects described so far, by name. -/
abbrev Named := List (String × Described)

/-- The identifier of a described thing. -/
def id : Described → Option Uuid
  | object entity => entity.id
  | group key _ => key

/-- The object that is described, if one is. -/
def object? : Described → Option Entity
  | object entity => some entity
  | group .. => none

/-- The described thing that a document names. -/
def named? (named : Named) (name : Value) : Option Described :=
  name.asText?.bind fun key => List.lookup key named

/-- A described thing as an object with attributes: a group has an identifier and a
title, like a channel. -/
def attributed : Described → Entity
  | object entity => entity
  | group key title => .channel { id := key, title := title }

/-- The record that a document describes. -/
def recordOf (named : Named) (value : Value) : Record where
  id := (value.get "id").asId?
  formId := (value.get "form_id").asId?
  resourceId := (value.get "resource_id").asId?
  data := value.get "data"
  archived := value.get "archived"
  groupIds := (value.get "groups").asIds
  form := (named? named (value.get "form")).map attributed
  resource := (named? named (value.get "resource")).map attributed

/-- The object of a kind that a document describes, if such objects are stored. -/
def entityOf? (named : Named) (value : Value) : Kind → Option Entity
  | .application => some (.application (.ofDescription value) (value.get "status"))
  | .page =>
    some (.page (.ofDescription value) (value.get "application_id").asId? (.ofDescription value))
  | .step =>
    some (.step (.ofDescription value) (value.get "workflow_id").asId? (.ofDescription value))
  | .workflow => some (.workflow (.ofDescription value))
  | .dashboard => some (.dashboard (.ofDescription value))
  | .apiConfiguration => some (.apiConfiguration (.ofDescription value))
  | .referenceData => some (.referenceData (.ofDescription value))
  | .form =>
    some (.form { Listed.ofDescription value with
      resourceId := (value.get "resource_id").asId?
      core := value.get "core"
      fields := value.get "fields" })
  | .resource =>
    some (.resource { Listed.ofDescription value with fields := value.get "fields" })
  | .record => some (.record (recordOf named value))
  | .role => some (.role (.ofDescription value))
  | .channel =>
    some (.channel
      { id := (value.get "id").asId?
        title := value.get "title"
        applicationId := (value.get "application_id").asId? })
  | .user => some (.user (.ofDescription value))
  | .notification =>
    some (.notification
      { id := (value.get "id").asId?
        action := value.get "action"
        channelId := (value.get "channel_id").asId?
        seenBy := (value.get "seen_by").asIds })
  | _ => none

/-- The thing that a document describes. -/
def ofDocument? (named : Named) (value : Value) : Option Described :=
  let kind := (value.get "kind").asText
  if kind = "Group" then some (group (value.get "id").asId? (value.get "title"))
  else ((Kind.ofName? kind).bind (entityOf? named value)).map object

/-! ### Shared roles -/

/-- The descriptions of roles in a description. -/
def rolesIn (value : Value) : List Value :=
  match (value.get "kind").asText with
  | "Role" => [value]
  | "User" => (value.get "roles").asItems
  | _ => []

/-- What the descriptions of one role share. -/
def sharedMembers : List String := ["application_id", "global", "app", "channels"]

/-- A description of a role with what the last of some descriptions of it says. -/
def sharedRole (descriptions : List Value) (role : Value) : Value :=
  let id := (role.get "id").asId?
  match descriptions.reverse.find? fun other => id.isSome && (other.get "id").asId? == id with
  | some last =>
    .object (sharedMembers.foldl (fun members name => Members.put members name (last.get name))
      role.asMembers)
  | none => role

/-- A description whose roles are as the last of some descriptions says. -/
def withSharedRoles (descriptions : List Value) (value : Value) : Value :=
  match (value.get "kind").asText with
  | "Role" => sharedRole descriptions value
  | "User" =>
    .object (Members.put value.asMembers "roles"
      (.list ((value.get "roles").asItems.map (sharedRole descriptions))))
  | _ => value

/-! ### Identifiers in descriptions -/

/-- The members of a description that are identifiers. -/
def idMembers : List String :=
  ["id", "application_id", "workflow_id", "content_id", "form_id", "resource_id", "channel_id"]

/-- The members of a description that are lists of identifiers. -/
def idListMembers : List String := ["groups", "seen_by", "channels"]

/-- What stands in the **places of identifiers** in a description. -/
def idsIn (value : Value) : List Value :=
  idMembers.map value.get ++ idListMembers.flatMap (fun name => (value.get name).asItems) ++
    (value.get "grants").asItems.map (·.get "role") ++
    (value.get "roles").asItems.flatMap RoleGrant.idsIn ++
    (value.get "attributes").asItems.flatMap (·.asItems.take 1)

/-! ### All descriptions -/

/-- The things described so far and what one more named document describes. -/
def add (named : Named) (document : String × Value) : Named :=
  match ofDocument? named document.2 with
  | some described => named ++ [(document.1, described)]
  | none => named

/-- The things that some named documents describe, each with a view of those before
it. -/
def all (documents : List (String × Value)) : Named :=
  documents.foldl add []

/-! ### References -/

/-- A description where the identifier of the thing that it names under `reference.1` is
given under `reference.2`. -/
def withReferred (named : Named) (value : Value) (reference : String × String) : Value :=
  match (value.get reference.1).given? with
  | some given =>
    .object (Members.put value.asMembers reference.2 (.ofId? ((named? named given).bind id)))
  | none => value

/-- The names under which records refer to things, with those of the identifiers. -/
def references : List (String × String) := [("form", "form_id"), ("resource", "resource_id")]

/-- A description that gives the **identifiers of what it refers to**. -/
def resolved (named : Named) (value : Value) : Value :=
  if (value.get "kind").asText = Kind.record.name then
    references.foldl (withReferred named) value
  else value

/-- Some named descriptions that give the identifiers of what they refer to among some
things and those described before them. -/
def resolvedAll (named : Named) : List (String × Value) → List (String × Value)
  | [] => []
  | (name, value) :: rest =>
    let document := (name, resolved named value)
    document :: resolvedAll (add named document) rest

/-- The objects among some described things. -/
def objects (named : Named) : List Entity :=
  named.filterMap (·.2.object?)

end Described

end Clearance
