import Clearance.Document.Access
import Clearance.Principal
import Clearance.Text.Sorted

/-!
# Principals as documents

A principal is described by its roles, groups and attributes. The document of a
principal repeats them and adds what the roles add up to; sets are written in
ascending order.
-/

namespace Clearance

/-- The role that a document describes. -/
def RoleGrant.ofDocument? (value : Value) : Option RoleGrant :=
  (value.get "id").asId?.map fun key =>
    { id := key
      applicationId := (value.get "application_id").asId?
      globalFlags := (value.get "global").asTexts
      applicationFlags := (value.get "app").asTexts
      channelIds := (value.get "channels").asIds }

/-- What stands in the places of identifiers in the description of a role. -/
def RoleGrant.idsIn (value : Value) : List Value :=
  [value.get "id", value.get "application_id"] ++ (value.get "channels").asItems

/-- The document of a set of texts. -/
def Value.ofTextSet (texts : List String) : Value :=
  .ofTexts (Text.setOf texts)

/-- The document of a role. -/
def RoleGrant.document (role : RoleGrant) : Value :=
  .object [("id", .ofId role.id), ("application_id", .ofId? role.applicationId),
    ("global", .ofTextSet role.globalFlags), ("app", .ofTextSet role.applicationFlags),
    ("channels", .ofIds role.channelIds)]

namespace Principal

/-- The values of attributes by category with one more entry: a category that is
there already keeps its place and gets the new values. -/
def putValues (known : List (Uuid × List String)) (category : Uuid) (values : List String) :
    List (Uuid × List String) :=
  if known.any (·.1 == category) then
    known.map fun entry => if entry.1 == category then (category, values) else entry
  else known ++ [(category, values)]

/-- The values of attributes by category that a document gives. -/
def attributesOf (value : Value) : List (Uuid × List String) :=
  value.asMembers.foldl (fun known (key, values) =>
    match Uuid.read? key with
    | some category => putValues known category values.asTexts
    | none => known) []

/-- The principal that a document describes. -/
def ofDocument? (value : Value) : Option Principal :=
  (value.get "user_id").asId?.map fun userId =>
    { userId
      roles := (value.get "roles").asItems.filterMap RoleGrant.ofDocument?
      groupIds := (value.get "groups").asIds
      attributes := attributesOf (value.get "attributes") }

/-- What stands in the places of identifiers in the description of a principal. -/
def idsIn (value : Value) : List Value :=
  value.get "user_id" :: (value.get "roles").asItems.flatMap RoleGrant.idsIn ++
    (value.get "groups").asItems ++ (value.get "attributes").asMembers.map (.text ·.1)

/-- The **document of a principal**. -/
def document (principal : Principal) : Value :=
  .object [("user_id", .ofId principal.userId),
    ("roles", .list (principal.roles.map RoleGrant.document)),
    ("groups", .ofIds principal.groupIds),
    ("attributes", .object (principal.attributes.map fun (category, values) =>
      (category.text, .ofTexts values))),
    ("role_ids", .ofIds principal.roleIds),
    ("global_permissions", .ofTextSet principal.globalFlags),
    ("application_ids", .ofIds principal.applicationIds),
    ("channel_ids", .ofIds principal.channelIds)]

end Principal

end Clearance
