import Clearance.Ability.Basic
import Clearance.Listing

/-!
# The base ability

The **base ability** of a principal follows from the snapshot alone. It is built
area by area. In each area a global flag unlocks whole kinds; without the flag,
the role lists of the objects decide. Broad grants come first, so a rule that is
added later has the last word.

The flags that a role carries for its own application are added when an
application is worked on (`Clearance.Ability.extendForFeatures`).
-/

namespace Clearance

/-- The status of an application that is in use. -/
def activeStatus : String := "active"

namespace BaseRules

variable (principal : Principal)

/-- The condition that an object's list admits the principal. -/
def listed (type : PermissionType) : Option Condition :=
  some (Listing.permissionCondition type principal)

/-- The kinds of objects that make up applications. -/
def applicationTree : List Kind := [.application, .dashboard, .channel, .page, .step, .workflow]

/-- The rules about reading, updating and deleting the objects of some kinds by
their role lists. -/
def byLists (kinds : List Kind) : List Rule :=
  Rule.allow [.read] kinds (listed principal .canSee) ++
    Rule.allow [.update] kinds (listed principal .canUpdate) ++
    Rule.allow [.delete] kinds (listed principal .canDelete)

/-- The condition on an application that it is in use and one of the principal's
roles belongs to it. -/
def ownActive : Condition :=
  .allOf [.fieldIn "id" (principal.applicationIds.map .id),
    .fieldEquals "status" (.value (.text activeStatus))]

/-- The rules about applications and their parts. -/
def applications : List Rule :=
  (if principal.holds .seeApplications then Rule.allow [.read] applicationTree
    else
      Rule.allow [.read] [.application] (some (ownActive principal)) ++
        Rule.allow [.read] [.application] (listed principal .canSee)) ++
    (if principal.holds .createApplications then Rule.allow [.create] [.application] else []) ++
    (if principal.holds .manageApplications then
      Rule.allow (Action.proper ++ [.manage]) applicationTree
    else byLists principal [.application, .page, .step])

/-- The rules about a kind whose records are stored with it: seen and managed by
flags along with the records, or else by its role lists. -/
def withRecords (kind : Kind) (see create manage : GlobalFlag) : List Rule :=
  (if principal.holds see then Rule.allow [.read] [kind, .record]
    else Rule.allow [.read] [kind] (listed principal .canSee)) ++
    (if principal.holds create then Rule.allow [.create] [kind] else []) ++
    (if principal.holds manage then
      Rule.allow Action.proper [kind] ++ Rule.allow [.manage] [.record]
    else
      Rule.allow [.update] [kind] (listed principal .canUpdate) ++
        Rule.allow [.delete] [kind] (listed principal .canDelete))

/-- The rules about forms. -/
def forms : List Rule :=
  withRecords principal .form .seeForms .createForms .manageForms

/-- The rules about resources. -/
def resources : List Rule :=
  withRecords principal .resource .seeResources .createResources .manageResources

/-- The rules about roles and channels. Everybody may read their own roles. -/
def roles : List Rule :=
  if principal.holds .seeRoles then Rule.allow Action.proper [.role, .channel]
  else
    let own := (principal.applicationsWith ApplicationFlag.seeRoles.key).map Operand.id
    Rule.allow Action.proper [.role, .channel] (some (.fieldIn "application_id" own)) ++
      Rule.allow [.read] [.role] (some (.fieldIn "id" (principal.roleIds.map .id)))

/-- The rules about users. -/
def users : List Rule :=
  if principal.holds .seeUsers then Rule.allow Action.proper [.user] else Rule.allow [.read] [.user]

/-- The condition on a notification that it was sent to one of the principal's
channels and the principal has not seen it. -/
def unseen : Condition :=
  .allOf [.fieldIn "channel_id" (principal.channelIds.map .id),
    .not (.relatedIn "seen_by" [principal.userId])]

/-- The rules about notifications. -/
def notifications : List Rule :=
  Rule.allow [.read, .update] [.notification] (some (unseen principal))

/-- The rules about interfaces to other systems. -/
def apiConfigurations : List Rule :=
  if principal.holds .manageApiConfigurations then
    Rule.allow Action.proper [.apiConfiguration, .pullJob, .referenceData]
  else byLists principal [.apiConfiguration, .referenceData]

/-- The rules about settings. -/
def settings : List Rule :=
  if principal.holds .seeUsers && principal.holds .seeRoles then
    Rule.allow [.read, .update] [.setting]
  else Rule.allow [.read] [.setting]

/-- All the rules of a principal, area by area. -/
def all : List Rule :=
  applications principal ++ forms principal ++ resources principal ++ roles principal ++
    users principal ++ notifications principal ++ apiConfigurations principal ++ settings principal

end BaseRules

namespace Ability

/-- The **base ability** of a principal. -/
def base (principal : Principal) : Ability where
  rules := BaseRules.all principal
  principal := some principal

/-! ### Features of an application -/

/-- What the application flags permit within their application. -/
def features : List (ApplicationFlag × List Action × Kind) :=
  [(.manageTemplates, Action.proper ++ [.manage], .template),
    (.manageDistributionLists, Action.proper ++ [.manage], .distributionList),
    (.manageCustomNotifications, Action.proper ++ [.manage], .customNotification),
    (.seeEmailNotifications, [.read], .emailNotification),
    (.manageEmailNotifications, [.update, .delete], .emailNotification),
    (.createEmailNotifications, [.create], .emailNotification)]

/-- The rules that the application flags of a principal add for one
application. -/
def featureRules (principal : Principal) (applicationId : Uuid) : List Rule :=
  features.flatMap fun (flag, actions, kind) =>
    if (principal.applicationsWith flag.key).contains applicationId then Rule.allow actions [kind]
    else []

/-- An ability with what the principal's flags permit within one application. -/
def extendForFeatures (ability : Ability) (applicationId : Uuid) : Ability :=
  match ability.principal with
  | none => ability
  | some principal => ability.extend (featureRules principal applicationId)

end Ability

end Clearance
