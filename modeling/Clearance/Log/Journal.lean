import Clearance.Ability.Base
import Clearance.Ability.Cascade
import Clearance.Ability.Records
import Clearance.Log.Event

/-!
# The journal

The **journal** of an operation is the list of events it notes, in order. It is a
function of what the operation works on or of what it results in, so the
operations themselves know nothing of the log.
-/

namespace Clearance.Journal

open Log

/-! ### Rules -/

/-- The journal of preparing rules for a principal. Only a rule that has been
looked into has a place for its defect; a rule that should not have been there is
not noted. -/
def rules {α : Type} (principal : Option Principal) (result : Except RuleError α) : List Event :=
  match principal, result with
  | some principal, .error error =>
    if error.place.isSome then [.invalidRule principal error] else []
  | _, _ => []

/-- The journal of an operation that may fail for several reasons. -/
def outcome {α : Type} (principal : Option Principal) (result : Except AccessError α) :
    List Event :=
  match result with
  | .error (.rule error) => rules principal (.error error : Except RuleError α)
  | _ => []

/-- The journal of building the base ability of a principal. -/
def base (principal : Principal) : List Event :=
  [.abilityBuilt principal (Ability.base principal)]

/-! ### The cascade -/

variable (ability : Ability) (store : Store)

/-- The journal of some walks. -/
def walks (walks : List Store.Walk) : List Event :=
  walks.flatMap fun walk => walk.dangling.map Event.danglingReference

/-- The journal of extending an ability for a content. What has been lent before a fault
is noted. -/
def content (content : Entity) (container : Option Entity) : List Event :=
  match ability.neededWalks store content container with
  | .ok (pending, taken) =>
    walks taken ++
      (ability.lentActions pending taken).actions.map
        (Event.actionLent ability.principal content)
  | .error _ => []

/-- The journal of extending an ability for a page or a step. -/
def container (entity : Entity) (application : Option Entity) : List Event :=
  match ability.pending entity, application with
  | .ok (_ :: _), none =>
    match store.walk entity with
    | .ok walk => walks [walk]
    | .error _ => []
  | _, _ => []

/-- The journal of extending an ability for some steps, one after the other. -/
def steps (ability : Ability) : List Entity → List Event
  | [] => []
  | step :: rest =>
    container ability store step none ++
      match ability.extendForContainer store step none with
      | .ok extended => steps extended rest
      | .error _ => []

/-- The journal of extending an ability for a workflow. -/
def workflow (workflow : Entity) : List Event :=
  steps store ability (store.stepsOf workflow.id)

end Clearance.Journal
