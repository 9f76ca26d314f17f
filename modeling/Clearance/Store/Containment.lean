import Clearance.Store.Basic

/-!
# Containment

Content is displayed on pages and in steps. Upwards, a step belongs to a
workflow, a workflow is displayed on pages, and a page belongs to an application;
no chain is longer than these four. References are not enforced, so a step may
name a workflow, and a page an application, that does not exist: such a reference
*dangles*.

`Clearance.Store.walk` collects an object and everything above it level by level,
each object once, and notes the dangling references it comes across.
-/

namespace Clearance

/-- What is directly **above** an object. -/
inductive Above
  /-- These objects. -/
  | objects (entities : List Entity)
  /-- A reference to an object that does not exist. -/
  | dangling (kind : Kind) (id : Uuid)
  /-- The object contains nothing that could be displayed. -/
  | noContainer
  /-- The store is closed. -/
  | closed

/-- A **dangling reference**: where it was found and what it names. -/
structure Dangling where
  /-- The object that holds the reference. -/
  holder : Entity
  /-- The kind of the object named. -/
  kind : Kind
  /-- The object named. -/
  id : Uuid

namespace Store

variable (store : Store)

/-! ### What displays, and what is above -/

/-- Whether an object displays the content with an identifier. -/
def displays (contentId : Option Uuid) : Entity → Bool
  | .page _ _ display | .step _ _ display => display.id == contentId
  | _ => false

/-- The pages that display a content, in ascending order. -/
def pagesDisplaying (contentId : Option Uuid) : List Entity :=
  store.ofKindWhere .page (displays contentId)

/-- The steps that display a content, in ascending order. -/
def stepsDisplaying (contentId : Option Uuid) : List Entity :=
  store.ofKindWhere .step (displays contentId)

/-- The **containers** that display a content: first the pages, then the steps. -/
def containersOf (contentId : Option Uuid) : List Entity :=
  store.pagesDisplaying contentId ++ store.stepsDisplaying contentId

/-- Whether an object is a page of an application. -/
def isPageOf (applicationId : Option Uuid) : Entity → Bool
  | .page _ id _ => id == applicationId
  | _ => false

/-- The pages of an application, in ascending order. -/
def pagesOf (applicationId : Option Uuid) : List Entity :=
  store.ofKindWhere .page (isPageOf applicationId)

/-- Whether an object is a step of a workflow. -/
def isStepOf (workflowId : Option Uuid) : Entity → Bool
  | .step _ id _ => id == workflowId
  | _ => false

/-- The steps of a workflow, in ascending order. -/
def stepsOf (workflowId : Option Uuid) : List Entity :=
  store.ofKindWhere .step (isStepOf workflowId)

/-- Whether an object is a form of a resource. -/
def isFormOf (resourceId : Uuid) : Entity → Bool
  | .form f => f.resourceId == some resourceId
  | _ => false

/-- The forms of a resource, or all of them, in ascending order. -/
def forms (resourceId : Option Uuid) : List Entity :=
  match resourceId with
  | some id => store.ofKindWhere .form (isFormOf id)
  | none => store.ofKind .form

/-- The object that a reference leads to. -/
def referenced (kind : Kind) : Option Uuid → Above
  | none => .objects []
  | some id =>
    if !store.isOpen then .closed
    else
      match store.find? kind id with
      | some entity => .objects [entity]
      | none => .dangling kind id

/-- What is directly above an object. -/
def above : Entity → Above
  | .step _ workflowId _ => store.referenced .workflow workflowId
  | .workflow listed =>
    if store.isOpen then .objects (store.pagesDisplaying listed.id) else .closed
  | .page _ applicationId _ => store.referenced .application applicationId
  | _ => .noContainer

/-- The objects directly above an object, or why there are none. -/
def parentsOf (entity : Entity) : Except AccessError (List Entity) :=
  match store.above entity with
  | .objects entities => .ok entities
  | .dangling kind id => .error (.notFound kind id)
  | .noContainer => .error (.notContainer entity.kind.name)
  | .closed => .error (.fault .missingAttribute)

/-! ### Walking upwards -/

/-- The state of a walk. -/
structure Walk where
  /-- The objects visited, the nearer ones first. -/
  visited : List Entity := []
  /-- The objects found on the next level. -/
  next : List Entity := []
  /-- The dangling references come across. -/
  dangling : List Dangling := []

/-- Whether an object with this identifier has been visited. -/
def Walk.hasVisited (walk : Walk) (id : Option Uuid) : Bool :=
  walk.visited.any fun entity => entity.id == id

/-- A walk after one more object, unless that has been visited. There is nothing
above an application, and a dangling reference only leaves out what it names. -/
def visit (walk : Walk) (entity : Entity) : Except AccessError Walk :=
  if walk.hasVisited entity.id then .ok walk
  else
    let walk := { walk with visited := walk.visited ++ [entity] }
    if entity.kind == .application then .ok walk
    else
      match store.above entity with
      | .objects entities => .ok { walk with next := walk.next ++ entities }
      | .dangling kind id =>
        .ok { walk with dangling := walk.dangling ++ [⟨entity, kind, id⟩] }
      | .noContainer => .error (.notContainer entity.kind.name)
      | .closed => .error (.fault .missingAttribute)

/-- A walk after some levels more. -/
def walkLevels : (levels : Nat) → Walk → Except AccessError Walk
  | 0, walk => .ok walk
  | levels + 1, walk => do
    let reached ← walk.next.foldlM store.visit { walk with next := [] }
    walkLevels levels reached

/-- The number of levels from a step to an application, both included. -/
def maxLevels : Nat := 4

/-- The **walk** upwards from an object. -/
def walk (start : Entity) : Except AccessError Walk :=
  store.walkLevels maxLevels { next := [start] }

end Store

end Clearance
