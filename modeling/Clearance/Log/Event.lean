import Clearance.Ability.Basic
import Clearance.Document.Access
import Clearance.Store.Containment
import Clearance.Text.Sorted

/-!
# Events

What happens while decisions are prepared is noted in a **log**. An event has a
name, the logger that notes it, a level, and extra fields. The fields that every
event may have come first: the user, the action, the kind and the identifier of
the object. A field without a value is left out.
-/

namespace Clearance.Log

/-- The **levels** of events. -/
inductive Level
  | debug | info | warning | error | critical
deriving DecidableEq, Repr

/-- The name of a level. -/
def Level.name : Level → String
  | debug => "DEBUG"
  | info => "INFO"
  | warning => "WARNING"
  | error => "ERROR"
  | critical => "CRITICAL"

/-- An **event**. -/
structure Event where
  /-- The logger that notes it. -/
  logger : String
  /-- How serious it is. -/
  level : Level
  /-- What happened. -/
  name : String
  /-- The extra fields. -/
  extra : List (String × Value)

/-- The fields of an event: those without a value are left out. -/
def present (fields : List (String × Value)) : List (String × Value) :=
  fields.filter fun field =>
    match field.2 with
    | .null => false
    | _ => true

namespace Event

/-- The base ability of a principal was built. -/
def abilityBuilt (principal : Principal) (ability : Ability) : Event where
  logger := "oort_access.features.access.builder"
  level := .debug
  name := "access.ability.built"
  extra :=
    let flags := ",".intercalate (Text.setOf principal.globalFlags)
    present [("user_id", .text principal.userId.text),
      ("rule_count", .integer ability.rules.length),
      ("global_permissions", if flags.isEmpty then .null else .text flags)]

/-- A stored rule of an entry for a principal could not be read. -/
def invalidRule (principal : Principal) (error : RuleError) : Event where
  logger := "oort_access.core.rules.compiler"
  level := .warning
  name := "access.rule.invalid"
  extra := present [("user_id", .text principal.userId.text), ("path", .ofText? error.placeText),
    ("detail", .text error.message)]

/-- A container lent an action on a content. -/
def actionLent (principal : Option Principal) (content : Entity) (action : Action) : Event where
  logger := "oort_access.features.access.cascade"
  level := .debug
  name := "access.cascade.granted"
  extra := present [("user_id", .ofId? (principal.map (·.userId))), ("action", .text action.name),
    ("subject", .text content.kind.name), ("object_id", .ofId? content.id)]

/-- A reference led nowhere. -/
def danglingReference (dangling : Dangling) : Event where
  logger := "oort_access.features.access.cascade"
  level := .debug
  name := "access.cascade.dangling"
  extra := present [("subject", .text dangling.holder.kind.name),
    ("object_id", .ofId? dangling.holder.id), ("missing_kind", .text dangling.kind.name),
    ("missing_id", .text dangling.id.text)]

/-- A context was opened for a user. -/
def contextOpened (principal : Principal) (ability : Ability) : Event where
  logger := "oort_access.features.access.context"
  level := .debug
  name := "access.context.opened"
  extra := present [("user_id", .text principal.userId.text),
    ("rule_count", .integer ability.rules.length)]

end Event

end Clearance.Log
