import Clearance.Rule.Compile

/-!
# Role lists

An object lists roles under permission types. While nobody is listed, an open
type admits everybody and a closed type nobody; once somebody is, the type admits
the principals who hold a role listed.

An entry for records may carry a rule. The **record access** that a list gives to
a principal is the disjunction of the rules of the entries for the principal's
roles, where an entry without a rule is for every record. A rule that cannot be
read is an error even if another entry has none: stored rules that are corrupt
must not go unnoticed. Entries for roles that the principal does not hold are not
looked at.
-/

namespace Clearance

/-- The permission type that a value names. -/
def PermissionType.read? (value : Value) : Except RuleError PermissionType :=
  match value with
  | .text key =>
    match PermissionType.ofKey? key with
    | some type => .ok type
    | none => .error ⟨.unknownPermissionType value, none⟩
  | _ => .error ⟨.unknownPermissionType value, none⟩

namespace Listing

variable (limit : Int) (grants : List Grant) (type : PermissionType)

/-- The entries under a permission type, in order. -/
def entries : List Grant :=
  grants.filter fun grant => grant.type == type.key

/-- The roles listed under a permission type. -/
def rolesGranting : List Uuid :=
  (entries grants type).map (·.roleId)

/-- Whether a list **admits** a principal. Rules about records are not looked
at. -/
def admits (principal : Principal) : Bool :=
  let listed := rolesGranting grants type
  if listed.isEmpty then type.openWhenEmpty else principal.holdsAny listed

/-- The rule of the first entry for a role that carries one. -/
def ruleGranting (roleId : Uuid) : Except RuleError (Option RuleTree) :=
  let carrying := (entries grants type).filter (·.roleId == roleId)
  match carrying.findSome? (·.access) with
  | none => .ok none
  | some document =>
    if type.acceptsRules then (RuleTree.read limit document).map some
    else .error ⟨.ruleNotAccepted type, none⟩

/-- The condition that a list of an object admits a principal. -/
def permissionCondition (principal : Principal) : Condition :=
  .granted type.key principal.roleIds type.openWhenEmpty

/-- The condition that the rule of an entry puts on records. -/
def entryCondition (principal : Principal) (document : Value) : Except RuleError Condition :=
  if type.acceptsRules then compileRule limit principal document
  else .error ⟨.ruleNotAccepted type, none⟩

/-- The entries under a permission type for the roles of a principal. -/
def entriesOf (principal : Principal) : List Grant :=
  (entries grants type).filter fun grant => principal.roleIds.contains grant.roleId

/-- The **record access** that a list gives to a principal: the condition on the
records, or `none` if it gives none. -/
def recordAccess (principal : Principal) : Except RuleError (Option Condition) :=
  if (entries grants type).isEmpty then
    .ok (if type.openWhenEmpty then some .everything else none)
  else do
    let mine := entriesOf grants type principal
    let conditions ← (mine.filterMap (·.access)).mapM (entryCondition limit type principal)
    return (
      if mine.any (·.access.isNone) then some .everything
      else if conditions.isEmpty then none
      else some (Condition.any conditions))

end Listing

end Clearance
