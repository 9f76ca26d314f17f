import Clearance.Condition.Basic
import Clearance.Rule.Reading

/-!
# Compiling rules for a user

A rule tree becomes a condition on records once it is known whose rule it is: the
values of the user are put into its leaves. A leaf about a category in which the
user has no values, or about groups of which the user has none, becomes the
condition that no record meets. The shape of the tree is kept.
-/

namespace Clearance

namespace RuleTree

variable (principal : Principal)

/-- The condition of an attribute leaf. -/
def compareCondition (category : Uuid) (field : String) (operator : Operator) : Condition :=
  let values := principal.attributeValues category
  if values.isEmpty then .nothing else .dataField field operator values

/-- The user's groups that a group leaf counts. -/
def countedGroups (named : List Uuid) : List Uuid :=
  if named.isEmpty then principal.groupIds else principal.groupIds.filter named.contains

/-- The condition of a group leaf. -/
def shareCondition (named : List Uuid) : Condition :=
  let groups := countedGroups principal named
  if groups.isEmpty then .nothing else .relatedIn "groups" groups

mutual

/-- The **condition** that a rule tree puts on records for a principal. -/
def condition : RuleTree → Condition
  | combine .and parts => .allOf (conditions parts)
  | combine .or parts => .anyOf (conditions parts)
  | compare category field operator => compareCondition principal category field operator
  | share named => shareCondition principal named

/-- The conditions of a list of trees. -/
def conditions : List RuleTree → List Condition
  | [] => []
  | part :: rest => condition part :: conditions rest

end

end RuleTree

/-- The condition that a stored rule puts on records for a principal; the rule
may have at most `limit` levels. -/
def compileRule (limit : Int) (principal : Principal) (document : Value) :
    Except RuleError Condition :=
  (RuleTree.read limit document).map (RuleTree.condition principal)

end Clearance
