import Clearance.Ability.Basic
import Clearance.Listing

/-!
# The records of a form

The record lists of a form say who may create, read, update and delete the
records that were submitted through it. An ability is extended form by form: each
rule that is added speaks about the records of that form only, and an action that
is already possible on some record is left alone.

Archived records stay hidden from readers who cannot update the form. This is the
only rule that denies, and it is added together with the rule that first lets the
form's records be read.
-/

namespace Clearance

/-- The list of a form that is consulted for an action on its records. -/
def recordType? : Action → Option PermissionType
  | .read => some .canSeeRecords
  | .update => some .canUpdateRecords
  | .delete => some .canDeleteRecords
  | .create | .manage => none

namespace FormRecords

variable (limit : Int) (form : Entity)

/-- The condition that a record was submitted through a form. -/
def submitted : Condition :=
  .fieldEquals "form_id" (.ofId form.id)

/-- The condition that a record was submitted through a form and meets one more
condition. -/
def restricted (access : Condition) : Condition :=
  .allOf [submitted form, access]

/-- The records of a form that one of its lists gives to a principal. -/
def access (principal : Principal) (type : PermissionType) : Except RuleError (Option Condition) :=
  (Listing.recordAccess limit form.grants type principal).map fun access =>
    access.map (restricted form)

/-- The rule that hides the archived records of a form. -/
def hideArchived : Rule where
  action := .read
  kind := .record
  condition := some (restricted form (.fieldEquals "archived" (.value (.flag true))))
  inverted := true

/-- The rules about creating records of a form. A list whose rule no record meets
adds none. -/
def creationRules (ability : Ability) (principal : Principal) : Except RuleError (List Rule) :=
  if ability.possible .create .record then .ok []
  else
    (Listing.recordAccess limit form.grants .canCreateRecords principal).map fun access =>
      match access with
      | some access =>
        if access.isNothing then []
        else Rule.allow [.create] [.record] (some (restricted form access))
      | none => []

/-- The rules about reading records of a form. Whether the form may be updated is asked
only if some records may be read. -/
def readingRules (ability : Ability) (principal : Principal) : Except AccessError (List Rule) := do
  if ability.possible .read .record then return []
  else
    match ← (access limit form principal .canSeeRecords).mapError .rule with
    | some access =>
      let mayUpdate ← (ability.allows .update form).mapError .fault
      return Rule.allow [.read] [.record] (some access) ++
        if mayUpdate then [] else [hideArchived form]
    | none => return []

/-- The rules about changing records of a form in one way. -/
def changingRules (ability : Ability) (principal : Principal) (action : Action)
    (type : PermissionType) : Except RuleError (List Rule) :=
  if ability.possible action .record then .ok []
  else
    (access limit form principal type).map fun access =>
      match access with
      | some access => Rule.allow [action] [.record] (some access)
      | none => []

/-- The rules about the records of a form. -/
def rules (ability : Ability) (principal : Principal) : Except AccessError (List Rule) := do
  let creation ← (creationRules limit form ability principal).mapError .rule
  let reading ← readingRules limit form ability principal
  let updating ←
    (changingRules limit form ability principal .update .canUpdateRecords).mapError .rule
  let deleting ←
    (changingRules limit form ability principal .delete .canDeleteRecords).mapError .rule
  return creation ++ reading ++ updating ++ deleting

/-- The rule about one action on the records of several forms at once, if one of
them gives any. -/
def jointRule (forms : List Entity) (ability : Ability) (principal : Principal)
    (action : Action) (type : PermissionType) : Except RuleError (List Rule) :=
  if ability.possible action .record then .ok []
  else
    (forms.mapM fun form => access limit form principal type).map fun found =>
      let conditions := found.filterMap id
      if conditions.isEmpty then []
      else Rule.allow [action] [.record] (some (.any conditions))

end FormRecords

namespace Ability

variable (limit : Int) (ability : Ability)

/-- The records of a form on which its list permits a named action, or `none`
when it permits nothing. Only reading, updating and deleting have a list. -/
def formRecords (form : Entity) (action : Value) : Except AccessError (Option Condition) :=
  match ability.principal with
  | none => .ok none
  | some principal => do
    match recordType? (← Action.read? action) with
    | none => throw (.fault .missingKey)
    | some type => (FormRecords.access limit form principal type).mapError .rule

/-- An ability with the rules about the **records of a form**. -/
def extendForRecords (form : Entity) : Except AccessError Ability :=
  match ability.principal with
  | none => .ok ability
  | some principal => (FormRecords.rules limit form ability principal).map ability.extend

/-- An ability with the rules about reading, updating and deleting the **records
of several forms**. -/
def extendForForms (forms : List Entity) : Except RuleError Ability :=
  match ability.principal with
  | none => .ok ability
  | some principal => do
    let joint := FormRecords.jointRule limit forms ability principal
    let reading ← joint .read .canSeeRecords
    let updating ← joint .update .canUpdateRecords
    let deleting ← joint .delete .canDeleteRecords
    return ability.extend (reading ++ updating ++ deleting)

end Ability

end Clearance
