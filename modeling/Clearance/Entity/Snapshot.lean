import Clearance.Entity.Basic

/-!
# Snapshots of users

The **snapshot** of a user splits the flags of each role by scope and collects
the values of the position attributes by category, each category in the place
where it first occurs and its values in their order. Roles keep theirs.
-/

namespace Clearance

/-- The keys of the flags of a role in one scope. -/
def Role.flagKeys (role : Role) (isGlobal : Bool) : List String :=
  (role.flags.filter (·.isGlobal == isGlobal)).map (·.key)

/-- What a role with the identifier `id` carries. -/
def Role.grant (role : Role) (id : Uuid) : RoleGrant where
  id := id
  applicationId := role.applicationId
  globalFlags := role.flagKeys true
  applicationFlags := role.flagKeys false
  channelIds := role.channelIds

/-- `value` added to the end of the values collected for `category`. -/
def collect (category : Uuid) (value : String) :
    List (Uuid × List String) → List (Uuid × List String)
  | [] => [(category, [value])]
  | (key, values) :: rest =>
    if key = category then (key, values ++ [value]) :: rest
    else (key, values) :: collect category value rest

/-- The values of a list of attributes by category. -/
def byCategory (attributes : List (Uuid × String)) : List (Uuid × List String) :=
  attributes.foldl (fun collected entry => collect entry.1 entry.2 collected) []

/-- The **snapshot** of the user with the identifier `id`. A role that has no
identifier of its own has never been stored and cannot be held. -/
def Principal.ofUser (user : User) (id : Uuid) : Principal where
  userId := id
  roles := user.roles.filterMap fun role => role.id.map role.grant
  groupIds := user.groupIds
  attributes := byCategory user.attributes

end Clearance
