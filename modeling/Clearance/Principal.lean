import Clearance.Identifier.Basic
import Clearance.Vocabulary.Flag

/-!
# Principals

A **principal** is a snapshot of one user: the roles the user holds with the
flags and channels they carry, the groups the user belongs to, and the values of
the user's position attributes by category. Everything a decision needs to know
about the user is in it.
-/

namespace Clearance

/-- What one of the user's **roles** carries. -/
structure RoleGrant where
  /-- The role. -/
  id : Uuid
  /-- The application the role belongs to, if it is not a role of all. -/
  applicationId : Option Uuid := none
  /-- The keys of the flags it carries everywhere. -/
  globalFlags : List String := []
  /-- The keys of the flags it carries within its application. -/
  applicationFlags : List String := []
  /-- The channels it subscribes to. -/
  channelIds : List Uuid := []
deriving DecidableEq

/-- A **principal**: the user that decisions are made for. -/
structure Principal where
  /-- The user. -/
  userId : Uuid
  /-- The roles the user holds. -/
  roles : List RoleGrant := []
  /-- The groups the user belongs to. -/
  groupIds : List Uuid := []
  /-- The values of the user's attributes, one entry a category. -/
  attributes : List (Uuid × List String) := []
deriving DecidableEq

namespace Principal

variable (principal : Principal)

/-! ### What the roles add up to -/

/-- The roles of the principal. -/
def roleIds : List Uuid :=
  principal.roles.map (·.id)

/-- The keys of the flags that some role carries everywhere. -/
def globalFlags : List String :=
  principal.roles.flatMap (·.globalFlags)

/-- The applications that some role belongs to. -/
def applicationIds : List Uuid :=
  principal.roles.filterMap (·.applicationId)

/-- The channels that some role subscribes to. -/
def channelIds : List Uuid :=
  principal.roles.flatMap (·.channelIds)

/-- Whether some role carries the flag with this key everywhere. -/
def hasGlobal (key : String) : Bool :=
  principal.roles.any fun role => role.globalFlags.contains key

/-- Whether some role carries a global flag. -/
def holds (flag : GlobalFlag) : Bool :=
  principal.hasGlobal flag.key

/-- The applications in which some role carries the flag with this key. -/
def applicationsWith (key : String) : List Uuid :=
  principal.roles.filterMap fun role =>
    if role.applicationFlags.contains key then role.applicationId else none

/-- Whether the principal holds one of the roles listed. -/
def holdsAny (roleIds : List Uuid) : Bool :=
  roleIds.any principal.roleIds.contains

/-- The values of the principal's attributes in one category. -/
def attributeValues (category : Uuid) : List String :=
  (principal.attributes.lookup category).getD []

end Principal

end Clearance
