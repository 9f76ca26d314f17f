import Clearance.FieldAccess
import Clearance.Log.Journal

/-!
# Contexts

A **context** serves one request. It holds the principal as it was when the
context was opened and the base ability built from it. What is derived from the
base ability for a content, an application, a form or a resource is derived once
and *remembered* for the rest of the request; the next request opens a context of
its own.

A context decides about loaded objects. When the base ability does not allow an
action, the ability derived for the object is asked: for a content the one that
borrows from its containers, for a record the one with the rules of its form.
-/

namespace Clearance

open Log (Event)

/-- A **context**: the principal of a request and its base ability. -/
structure Context where
  /-- The principal. -/
  principal : Principal
  /-- The base ability. -/
  base : Ability

namespace Context

/-- What an ability was derived for. -/
inductive Key
  /-- A content, and the container named along with it. -/
  | content (id container : Option Uuid)
  /-- An application. -/
  | application (id : Option Uuid)
  /-- The records of a form. -/
  | records (form : Option Uuid)
  /-- The records of a resource. -/
  | resourceRecords (resource : Uuid)
deriving DecidableEq

/-- What a request has gathered: derived abilities and noted events. -/
structure Session where
  /-- The abilities derived so far, each under what it was derived for. -/
  memo : List (Key × Ability) := []
  /-- The events noted so far. -/
  log : List Event := []

/-- The ability that is remembered under a key. -/
def Session.recall? (session : Session) (key : Key) : Option Ability :=
  session.memo.lookup key

/-- A **request step**: it may fail, and keeps what has been gathered even then. -/
abbrev Request := ExceptT AccessError (StateM Session)

/-! ### Opening -/

/-- The context of a principal. -/
def ofPrincipal (principal : Principal) : Context where
  principal := principal
  base := Ability.base principal

/-- The journal of opening the context of a principal. -/
def openingJournal (principal : Principal) : List Event :=
  Journal.base principal ++ [.contextOpened principal (Ability.base principal)]

/-- The context of a stored user. -/
def ofUser (store : Store) (userId : Uuid) : Except AccessError Context :=
  (store.loadPrincipal userId).map ofPrincipal

/-- The correlation identifier that is bound once a context has been asked for
with the one given. It is bound even if the user does not exist. -/
def correlationInside (given bound : Option String) : Option String :=
  given <|> bound

/-- The correlation identifier that is bound after a scope that was entered with
the one given. -/
def correlationAfter (given bound : Option String) : Option String :=
  if given.isSome then none else bound

/-! ### Derived abilities -/

/-- The ability remembered under a key. If there is none, it is `derived`, with the
events of the derivation noted; a failure is not remembered. -/
def remembered (key : Key) (events : List Event) (derived : Except AccessError Ability) :
    Request Ability := fun session =>
  match session.recall? key with
  | some ability => (.ok ability, session)
  | none =>
    let noted := { session with log := session.log ++ events }
    match derived with
    | .ok ability => (.ok ability, { noted with memo := (key, ability) :: noted.memo })
    | .error error => (.error error, noted)

/-- An outcome as a step that gathers nothing. -/
def settled {α : Type} (outcome : Except AccessError α) : Request α := fun session =>
  (outcome, session)

variable (limit : Int) (store : Store) (context : Context)

/-- The ability derived for a content. -/
def abilityForContent (content : Entity) (container : Option Entity) : Request Ability :=
  remembered (.content content.id (container.bind Entity.id))
    (Journal.content context.base store content container)
    (context.base.extendForContent store content container)

/-- The ability derived for an application: for its pages, and with its features. -/
def abilityForApplication (application : Entity) : Request Ability :=
  remembered (.application application.id) []
    ((context.base.extendForApplication store application).map fun extended =>
      match application.id with
      | some id => extended.extendForFeatures id
      | none => extended)

/-- The ability derived for the records of a form. -/
def abilityForRecords (form : Entity) : Request Ability :=
  let derived := context.base.extendForRecords limit form
  remembered (.records form.id) (Journal.outcome context.base.principal derived) derived

/-- The ability derived for the records of a resource. -/
def abilityForResourceRecords (resourceId : Uuid) : Request Ability :=
  let derived : Except AccessError Ability := do
    store.reached.mapError .fault
    (context.base.extendForForms limit (store.forms (some resourceId))).mapError .rule
  remembered (.resourceRecords resourceId) (Journal.outcome context.base.principal derived) derived

/-! ### Decisions -/

/-- The ability that is asked about an object when the base ability does not allow
an action on it, if there is one. -/
def derivedAbility (entity : Entity) (container : Option Entity) : Request (Option Ability) :=
  if entity.kind.isContent then some <$> context.abilityForContent store entity container
  else
    match entity with
    | .record { form := some form, .. } => some <$> context.abilityForRecords limit form
    | _ => pure none

/-- Whether a named action is **allowed** on an object. -/
def can (action : Value) (entity : Entity) (container : Option Entity) : Request Bool := do
  if ← settled (context.base.ask action (.object entity) none) then return true
  else
    match ← context.derivedAbility limit store entity container with
    | some ability => settled (ability.ask action (.object entity) none)
    | none => return false

/-- Nothing, unless a named action is not allowed on an object. -/
def authorize (action : Value) (entity : Entity) (container : Option Entity) : Request Unit := do
  if ← context.can limit store action entity container then return ()
  else
    let named ← settled (Action.read? action)
    settled (.error (.notGranted named entity.kind entity.id))

/-- The objects on which a named action is allowed, in the order given. -/
def filterAllowed (action : Value) : List Entity → Request (List Entity)
  | [] => pure []
  | entity :: rest => do
    let allowed ← context.can limit store action entity none
    let others ← filterAllowed action rest
    return if allowed then entity :: others else others

/-- The **visible records** of a form: those on which a named action is allowed, in
ascending order. -/
def visibleRecords (form : Entity) (action : Value) : Request (List Entity) := do
  let ability ← context.abilityForRecords limit form
  let action ← settled (Action.read? action)
  settled ((store.accessibleRecords ability action form.id).mapError .fault)

/-- The ability that decides about the fields of a record. -/
def abilityForFields (entity : Entity) : Request Ability :=
  match entity with
  | .record { form := some form, .. } => context.abilityForRecords limit form
  | .record _ => pure context.base
  | _ => settled (.error (.fault .missingAttribute))

/-- The names of the fields of a record that the principal may read. -/
def readableFields (entity : Entity) : Request (List String) := do
  let ability ← context.abilityForFields limit entity
  settled (ability.accessibleFields (.text Action.read.name) entity none)

/-- The data of a record that the principal may read. -/
def readableData (entity : Entity) : Request (List (String × Value)) := do
  let ability ← context.abilityForFields limit entity
  settled (ability.accessibleData (.text Action.read.name) entity none)

end Context

end Clearance
