import Clearance.Ability.Basic
import Clearance.Listing
import Clearance.Store.Containment

/-!
# The cascade

Whoever may use a container may use the content it displays. The **cascade**
walks upwards from the containers of a content and adds to an ability the rules
for that content which something on the way *lends*: an application by the roles
listed on it, any other object by what the ability already allows on it. Pages
and steps borrow from what is above them in the same way.

Rules are only ever added, and only for actions that are not allowed yet.
-/

namespace Clearance

/-! ### Lending -/

/-- The list of an application that is consulted for an action. -/
def lendingType? : Action → Option PermissionType
  | .read => some .canSee
  | .update => some .canUpdate
  | .delete => some .canUpdate
  | .create | .manage => none

/-- Whether a principal holds a role listed on an application for a named action.
An application that lists nobody grants nothing here. -/
def applicationGrants (principal : Option Principal) (grants : List Grant) (action : Value) :
    Except AccessError Bool :=
  match principal with
  | none => .ok false
  | some principal => do
    match lendingType? (← Action.read? action) with
    | some type => return principal.holdsAny (Listing.rolesGranting grants type)
    | none => throw (.fault .missingKey)

namespace Ability

variable (ability : Ability)

/-- Whether an object **lends** an action to what is below it. -/
def lends (action : Action) (entity : Entity) : Except Fault Bool :=
  if entity.kind == .application then
    .ok (((lendingType? action).bind fun type =>
      ability.principal.map fun principal =>
        principal.holdsAny (Listing.rolesGranting entity.grants type)).getD false)
  else ability.allows action entity

/-- The lendable actions that are not allowed on an object yet. -/
def pending (entity : Entity) : Except Fault (List Action) :=
  Action.lendable.filterM fun action => (ability.allows action entity).map Bool.not

/-- The rule that allows an action on one object. -/
def ruleForOne (entity : Entity) (action : Action) : Rule where
  action := action
  kind := entity.kind
  condition := some (.fieldEquals "id" (.ofId entity.id))

/-- What has been lent: some actions, and the fault that ended the search if one did. -/
structure Loan where
  /-- The actions lent, in order. -/
  actions : List Action := []
  /-- What ended the search. -/
  fault : Option Fault := none

/-- The actions of a list that something on one of the chains lends. The chains are
searched one after the other, each from below, for one action at a time. -/
def borrowed (chains : List (List Entity)) : List Action → Loan
  | [] => {}
  | action :: rest =>
    match chains.anyM (·.anyM (ability.lends action)) with
    | .error fault => { fault := some fault }
    | .ok lent =>
      let others := borrowed chains rest
      if lent then { others with actions := action :: others.actions } else others

/-- An ability with the rules for what has been lent for one object. -/
def withLoan (entity : Entity) (loan : Loan) : Except AccessError Ability :=
  match loan.fault with
  | some fault => .error (.fault fault)
  | none => .ok (ability.extend (loan.actions.map (ruleForOne entity)))

variable (store : Store)

/-! ### Content -/

/-- The walks from the containers of a content: from the one given, or from every
page and step that displays the content. -/
def contentWalks (content : Entity) (container : Option Entity) :
    Except AccessError (List Store.Walk) :=
  match container with
  | some container => [container].mapM store.walk
  | none => do
    store.reached.mapError .fault
    (store.containersOf content.id).mapM store.walk

/-- The pending actions on a content and the walks that an extension takes; none when
nothing is pending. -/
def neededWalks (content : Entity) (container : Option Entity) :
    Except AccessError (List Action × List Store.Walk) := do
  let pending ← (ability.pending content).mapError .fault
  if pending.isEmpty then return (pending, [])
  else return (pending, ← contentWalks store content container)

/-- The pending actions that something on one of the walks lends. -/
def lentActions (pending : List Action) (walks : List Store.Walk) : Loan :=
  ability.borrowed (walks.map (·.visited)) pending

/-- An ability with what the containers of a content lend to it. -/
def extendForContent (content : Entity) (container : Option Entity) :
    Except AccessError Ability := do
  let (pending, walks) ← ability.neededWalks store content container
  ability.withLoan content (ability.lentActions pending walks)

/-! ### Pages and steps -/

/-- What is above a page or a step: the application given, or what a walk
visits besides the object itself. -/
def lendersAbove (entity : Entity) (application : Option Entity) :
    Except AccessError (List Entity) :=
  match application with
  | some application => .ok [application]
  | none => (store.walk entity).map fun walk => walk.visited.drop 1

/-- An ability with what is above a page or a step lends to it. -/
def extendForContainer (entity : Entity) (application : Option Entity) :
    Except AccessError Ability := do
  let pending ← (ability.pending entity).mapError .fault
  if pending.isEmpty then return ability
  else
    let lenders ← lendersAbove store entity application
    ability.withLoan entity (ability.borrowed [lenders] pending)

/-! ### Whole applications and workflows -/

/-- An ability extended for some pages or steps, one after the other. -/
def extendForContainers (application : Option Entity) (entities : List Entity) :
    Except AccessError Ability :=
  entities.foldlM (fun extended entity => extended.extendForContainer store entity application)
    ability

/-- An ability that may create objects of a kind if it may update what contains
them. -/
def allowCreating (kind : Kind) (container : Entity) : Except AccessError Ability := do
  let mayUpdate ← (ability.allows .update container).mapError .fault
  return (
    if mayUpdate && !ability.possible .create kind then
      ability.extend (Rule.allow [.create] [kind])
    else ability)

/-- An ability extended for every page of an application, and for creating pages
if it may update the application. -/
def extendForApplication (application : Entity) : Except AccessError Ability := do
  store.reached.mapError .fault
  let extended ←
    ability.extendForContainers store (some application) (store.pagesOf application.id)
  extended.allowCreating .page application

/-- An ability extended for every step of a workflow, and for creating steps if
it may update the workflow. -/
def extendForWorkflow (workflow : Entity) : Except AccessError Ability := do
  store.reached.mapError .fault
  let extended ← ability.extendForContainers store none (store.stepsOf workflow.id)
  extended.allowCreating .step workflow

end Ability

end Clearance
