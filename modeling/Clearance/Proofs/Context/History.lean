import Clearance.Proofs.Context.Memo
import Clearance.Proofs.Identifier.Text

/-!
# Questions one after the other

What a context is asked leaves traces: abilities are derived on the way and remembered, under
keys that four kinds of derivation share. This file says that the traces cannot be told from
the answers. A session is *faithful* if whatever it remembers for a stored object is what the
base ability is extended to for it (`Clearance.Context.Session.IsFaithful`), and a step of a
request is *steady* if on every faithful session it has the outcome that it has on a fresh one,
and leaves the session faithful (`Clearance.Context.Steady`). Steady steps compose, so that
each question is steady because the derivations are, and those are because no two stored
objects have a key in common (`Clearance.Context.Source.eq_of_key_eq`).

From one question to any number of them is one induction
(`Clearance.Context.outcomes_eq_fresh`). A question that fails is no exception, though it may
leave abilities behind that were derived before it failed: who is refused by
`Clearance.Context.authorize` has had the ability for the object derived
(`Clearance.Context.authorize_remembers`).
-/

namespace Clearance

/-- A store whose objects are **told apart** by their identifiers alone, whatever their kinds,
and whose records were loaded with their forms. -/
structure Store.IsToldApart (store : Store) : Prop where
  /-- Every object has a key. -/
  keyed : store.IsKeyed
  /-- Every record is loaded with its form. -/
  linked : store.IsLinked
  /-- No two objects share an identifier, also across kinds. -/
  unique : ∀ a ∈ store.entities, ∀ b ∈ store.entities, a.id = b.id → a = b

namespace Context

open Outcome

variable {α β : Type} {limit : Int} {store : Store} {context : Context} {session : Session}

/-! ### Derivations -/

/-- What an ability is **derived for**. -/
inductive Source
  /-- A content, and the container named along with it. -/
  | content (entity : Entity) (container : Option Entity)
  /-- An application. -/
  | application (entity : Entity)
  /-- The records of a form. -/
  | records (form : Entity)
  /-- The records of a resource. -/
  | resource (id : Uuid)

namespace Source

/-- The key under which what is derived is remembered. -/
def key : Source → Key
  | content entity container => .content entity.id (container.bind Entity.id)
  | application entity => .application entity.id
  | records form => .records form.id
  | resource id => .resourceRecords id

/-- The step that derives it or remembers it. -/
def request (limit : Int) (store : Store) (context : Context) : Source → Request Ability
  | content entity container => context.abilityForContent store entity container
  | application entity => context.abilityForApplication store entity
  | records form => context.abilityForRecords limit form
  | resource id => context.abilityForResourceRecords limit store id

/-- What is **derived**, from the base ability of the context. -/
def derived (limit : Int) (store : Store) (context : Context) : Source → Except AccessError Ability
  | content entity container => context.base.extendForContent store entity container
  | application entity =>
    (context.base.extendForApplication store entity).map fun extended =>
      match entity.id with
      | some id => extended.extendForFeatures id
      | none => extended
  | records form => context.base.extendForRecords limit form
  | resource id => context.resourceDerivation limit store id

/-- A source whose objects are **stored**. -/
def IsStored (store : Store) : Source → Prop
  | content entity container =>
    entity ∈ store.entities ∧ ∀ other ∈ container, other ∈ store.entities
  | application entity => entity ∈ store.entities
  | records form => form ∈ store.entities
  | resource _ => True

/-- A request for an ability remembers, and notes some events where it derives. -/
theorem exists_request_eq (source : Source) : ∃ events,
    source.request limit store context =
      remembered source.key events (source.derived limit store context) := by
  cases source <;> exact ⟨_, rfl⟩

end Source

/-! ### Keys -/

/-- A container is told by its identifier, and none is told from all. -/
theorem eq_of_container_id_eq (hstore : store.IsToldApart) {a b : Option Entity}
    (ha : ∀ container ∈ a, container ∈ store.entities)
    (hb : ∀ container ∈ b, container ∈ store.entities)
    (hid : a.bind Entity.id = b.bind Entity.id) : a = b := by
  have hidentified : ∀ {container : Entity}, container ∈ store.entities → container.id ≠ none := by
    intro container hcontainer hnone
    obtain ⟨id, hsome⟩ := hstore.keyed.identified container hcontainer
    cases hnone.symm.trans hsome
  cases a with
  | none =>
    cases b with
    | none => rfl
    | some container => exact absurd hid.symm (hidentified (hb container rfl))
  | some container =>
    cases b with
    | none => exact absurd hid (hidentified (ha container rfl))
    | some other =>
      exact congrArg some (hstore.unique container (ha container rfl) other (hb other rfl) hid)

/-- **No two stored sources have a key in common**: the four kinds of derivation have keys of
different shapes, and within one kind the identifiers tell the objects. -/
theorem Source.eq_of_key_eq (hstore : store.IsToldApart) {a b : Source} (ha : a.IsStored store)
    (hb : b.IsStored store) (hkey : a.key = b.key) : a = b := by
  cases a with
  | content entity container =>
    cases b with
    | content other otherContainer =>
      obtain ⟨hid, hcontainer⟩ := Key.content.inj hkey
      rw [hstore.unique entity ha.1 other hb.1 hid,
        eq_of_container_id_eq hstore ha.2 hb.2 hcontainer]
    | _ => exact nomatch hkey
  | application entity =>
    cases b with
    | application other => rw [hstore.unique entity ha other hb (Key.application.inj hkey)]
    | _ => exact nomatch hkey
  | records form =>
    cases b with
    | records other => rw [hstore.unique form ha other hb (Key.records.inj hkey)]
    | _ => exact nomatch hkey
  | resource id =>
    cases b with
    | resource other => rw [Key.resourceRecords.inj hkey]
    | _ => exact nomatch hkey

/-! ### Faithful sessions -/

/-- A **faithful** session: all it remembers is what has been derived for stored objects. -/
def Session.IsFaithful (limit : Int) (store : Store) (context : Context) (session : Session) :
    Prop :=
  ∀ key ability, session.recall? key = some ability → ∃ source : Source, source.IsStored store ∧
    source.key = key ∧ source.derived limit store context = .ok ability

theorem isFaithful_new : ({} : Session).IsFaithful limit store context := by
  rintro key ability ⟨⟩

/-- A faithful session keeps to every derivation for stored objects, for there is no other with
the key. -/
theorem Session.IsFaithful.keepsTo (hstore : store.IsToldApart)
    (h : session.IsFaithful limit store context) {source : Source}
    (hsource : source.IsStored store) :
    session.KeepsTo source.key (source.derived limit store context) := by
  intro ability hrecall
  obtain ⟨other, hother, hkey, hderived⟩ := h source.key ability hrecall
  rw [← Source.eq_of_key_eq hstore hother hsource hkey, hderived]

/-- It stays faithful when what is derived for stored objects is remembered. -/
theorem isFaithful_remembered (h : session.IsFaithful limit store context) {source : Source}
    (hsource : source.IsStored store) {events : List Log.Event} :
    (remembered source.key events (source.derived limit store context) session).2.IsFaithful
      limit store context := by
  rw [remembered]
  split
  · exact h
  · cases hderived : source.derived limit store context with
    | error error => exact h
    | ok ability =>
      intro key found hfound
      rw [Session.recall?, Table.lookup_cons] at hfound
      split at hfound
      · next hkey =>
        obtain rfl : ability = found := Option.some.inj hfound
        exact ⟨source, hsource, hkey.symm, hderived⟩
      · exact h key found hfound

/-- A session that **remembers all** that another one does, and the same. -/
def Session.RemembersAll (after before : Session) : Prop :=
  ∀ key ability, before.recall? key = some ability → after.recall? key = some ability

theorem Session.RemembersAll.refl (session : Session) : session.RemembersAll session :=
  fun _ _ h => h

theorem Session.RemembersAll.trans {a b c : Session} (hab : a.RemembersAll b)
    (hbc : b.RemembersAll c) : a.RemembersAll c :=
  fun key ability h => hab key ability (hbc key ability h)

variable {key : Key} {events : List Log.Event} {outcome : Except AccessError Ability}

/-- What is remembered anew takes nothing away: it is derived only if its key is free. -/
theorem remembersAll_remembered :
    (remembered key events outcome session).2.RemembersAll session := by
  rw [remembered]
  cases hrecall : session.recall? key with
  | some ability => exact .refl session
  | none =>
    cases outcome with
    | error error => exact fun other ability h => h
    | ok ability =>
      intro other found hfound
      have hne : other ≠ key := by
        rintro rfl
        cases hrecall.symm.trans hfound
      rw [Session.recall?, Table.lookup_cons, if_neg hne]
      exact hfound

/-- **A failure is not remembered.** -/
theorem memo_remembered_of_error {error : AccessError}
    (h : (remembered key events outcome session).1 = .error error) :
    (remembered key events outcome session).2.memo = session.memo := by
  rw [remembered] at h ⊢
  cases hrecall : session.recall? key with
  | some ability => rfl
  | none =>
    cases outcome with
    | error error => rfl
    | ok ability => simp [hrecall] at h

/-! ### Steady steps -/

/-- A **steady** step: on a faithful session it has the outcome that it has on a fresh one, and
leaves the session faithful and everything remembered. -/
structure Steady (limit : Int) (store : Store) (context : Context) (step : Request α) : Prop where
  /-- The outcome is that on a fresh session. -/
  outcome : ∀ session : Session, session.IsFaithful limit store context →
    (step session).1 = (step {}).1
  /-- The session stays faithful. -/
  faithful : ∀ session : Session, session.IsFaithful limit store context →
    (step session).2.IsFaithful limit store context
  /-- What was remembered still is. -/
  remembers : ∀ session : Session, (step session).2.RemembersAll session

/-- What needs no session is steady. -/
theorem steady_settled (outcome : Except AccessError α) :
    Steady limit store context (settled outcome) :=
  ⟨fun _ _ => rfl, fun _ h => h, .refl⟩

theorem steady_pure (a : α) : Steady limit store context (pure a : Request α) :=
  ⟨fun _ _ => rfl, fun _ h => h, .refl⟩

/-- The outcome of one steady step after the other is that of the second for what the first
gives, both on fresh sessions. -/
theorem fst_bind {step : Request α} {next : α → Request β}
    (hstep : Steady limit store context step)
    (hnext : ∀ a, Steady limit store context (next a))
    (hsession : session.IsFaithful limit store context) :
    ((step >>= next) session).1 = (step {}).1 >>= fun a => (next a {}).1 := by
  have houtcome := hstep.outcome session hsession
  have hfaithful := hstep.faithful session hsession
  rw [bind_run]
  rcases hrun : step session with ⟨error | a, after⟩ <;> rw [hrun] at houtcome hfaithful
  · rw [← houtcome]
    rfl
  · rw [← houtcome]
    exact (hnext a).outcome after hfaithful

/-- **Steady steps compose.** -/
theorem steady_bind {step : Request α} {next : α → Request β}
    (hstep : Steady limit store context step)
    (hnext : ∀ a, Steady limit store context (next a)) :
    Steady limit store context (step >>= next) where
  outcome session hsession :=
    (fst_bind hstep hnext hsession).trans (fst_bind hstep hnext isFaithful_new).symm
  faithful session hsession := by
    have hfaithful := hstep.faithful session hsession
    rw [bind_run]
    rcases hrun : step session with ⟨error | a, after⟩ <;> rw [hrun] at hfaithful
    · exact hfaithful
    · exact (hnext a).faithful after hfaithful
  remembers session := by
    have hremembers := hstep.remembers session
    rw [bind_run]
    rcases hrun : step session with ⟨error | a, after⟩ <;> rw [hrun] at hremembers
    · exact hremembers
    · exact ((hnext a).remembers after).trans hremembers

theorem steady_map (f : α → β) {step : Request α} (hstep : Steady limit store context step) :
    Steady limit store context (f <$> step) := by
  rw [← bind_pure_comp]
  exact steady_bind hstep fun a => steady_pure (f a)

/-! ### Derived abilities -/

variable {source : Source}

/-- **A derivation is steady**: what is remembered under its key was derived for the same
object. -/
theorem steady_request (hstore : store.IsToldApart) (hsource : source.IsStored store) :
    Steady limit store context (source.request limit store context) := by
  obtain ⟨events, hrequest⟩ : ∃ events, source.request limit store context =
      remembered source.key events (source.derived limit store context) := source.exists_request_eq
  rw [hrequest]
  refine ⟨fun session hsession => ?_, fun session hsession => ?_,
    fun session => remembersAll_remembered⟩
  · rw [fst_remembered (hsession.keepsTo hstore hsource),
      fst_remembered (isFaithful_new.keepsTo hstore hsource)]
  · exact isFaithful_remembered hsession hsource

theorem steady_abilityForRecords (hstore : store.IsToldApart) {form : Entity}
    (hform : form ∈ store.entities) :
    Steady limit store context (context.abilityForRecords limit form) := by
  have hrecords : Steady limit store context
      ((Source.records form).request limit store context) := steady_request hstore hform
  exact hrecords

theorem steady_derivedAbility (hstore : store.IsToldApart) {entity : Entity}
    {container : Option Entity} (hentity : entity ∈ store.entities)
    (hcontainer : ∀ other ∈ container, other ∈ store.entities) :
    Steady limit store context (context.derivedAbility limit store entity container) := by
  have hcontent : Steady limit store context
      ((Source.content entity container).request limit store context) :=
    steady_request hstore ⟨hentity, hcontainer⟩
  unfold derivedAbility
  split
  · exact steady_map some hcontent
  · split
    · obtain ⟨hform, -⟩ := hstore.linked.mem_of_form hstore.keyed hentity rfl
      exact steady_map some (steady_abilityForRecords hstore hform)
    · exact steady_pure none

/-! ### Decisions -/

theorem steady_can (hstore : store.IsToldApart) (action : Value) {entity : Entity}
    {container : Option Entity} (hentity : entity ∈ store.entities)
    (hcontainer : ∀ other ∈ container, other ∈ store.entities) :
    Steady limit store context (context.can limit store action entity container) := by
  rw [can]
  refine steady_bind (steady_settled _) fun allowed => ?_
  split
  · exact steady_pure true
  · refine steady_bind (steady_derivedAbility hstore hentity hcontainer) fun derived => ?_
    cases derived with
    | none => exact steady_pure false
    | some ability => exact steady_settled _

theorem steady_authorize (hstore : store.IsToldApart) (action : Value) {entity : Entity}
    {container : Option Entity} (hentity : entity ∈ store.entities)
    (hcontainer : ∀ other ∈ container, other ∈ store.entities) :
    Steady limit store context (context.authorize limit store action entity container) := by
  rw [authorize]
  refine steady_bind (steady_can hstore action hentity hcontainer) fun allowed => ?_
  split
  · exact steady_pure ()
  · exact steady_bind (steady_settled _) fun _ => steady_settled _

theorem steady_filterAllowed (hstore : store.IsToldApart) (action : Value) {entities : List Entity}
    (hentities : ∀ entity ∈ entities, entity ∈ store.entities) :
    Steady limit store context (context.filterAllowed limit store action entities) := by
  induction entities with
  | nil => exact steady_pure []
  | cons entity rest ih =>
    obtain ⟨hentity, hrest⟩ := List.forall_mem_cons.mp hentities
    rw [filterAllowed]
    refine steady_bind (steady_can hstore action hentity (by simp)) fun allowed => ?_
    exact steady_bind (ih hrest) fun others => steady_pure _

theorem steady_visibleRecords (hstore : store.IsToldApart) {form : Entity}
    (hform : form ∈ store.entities) (action : Value) :
    Steady limit store context (context.visibleRecords limit store form action) := by
  rw [visibleRecords]
  refine steady_bind (steady_abilityForRecords hstore hform) fun ability => ?_
  exact steady_bind (steady_settled _) fun action => steady_settled _

/-- **A selection** gives the objects that the context allows, in their order, and has an
outcome if every decision does. -/
theorem fst_filterAllowed_eq_ok (hstore : store.IsToldApart) (action : Value)
    {entities kept : List Entity} (hentities : ∀ entity ∈ entities, entity ∈ store.entities)
    (hsession : session.IsFaithful limit store context) :
    (context.filterAllowed limit store action entities session).1 = .ok kept ↔
      (∀ entity ∈ entities, ∃ allowed,
        (context.can limit store action entity none {}).1 = .ok allowed) ∧
      kept = entities.filter fun entity =>
        (context.can limit store action entity none {}).1.toOption == some true := by
  induction entities generalizing kept session with
  | nil =>
    change Except.ok [] = Except.ok kept ↔ _
    simp [eq_comm]
  | cons entity rest ih =>
    obtain ⟨hentity, hrest⟩ := List.forall_mem_cons.mp hentities
    have hcan : Steady limit store context (context.can limit store action entity none) :=
      steady_can hstore action hentity (by simp)
    have hothers : Steady limit store context (context.filterAllowed limit store action rest) :=
      steady_filterAllowed hstore action hrest
    rw [filterAllowed, fst_bind hcan
      (fun _ => steady_bind hothers fun _ => steady_pure _) hsession, List.forall_mem_cons]
    cases hallowed : (context.can limit store action entity none {}).1 with
    | error error => simp [bind, Except.bind]
    | ok allowed =>
      have houtcome : ((Except.ok allowed : Except AccessError Bool) >>= fun allowed =>
          ((context.filterAllowed limit store action rest >>= fun others =>
            pure (if allowed then entity :: others else others)) {}).1) =
          (context.filterAllowed limit store action rest {}).1.map fun others =>
            if allowed then entity :: others else others :=
        fst_bind hothers (fun _ => steady_pure _) isFaithful_new
      rw [houtcome, map_eq_ok]
      simp only [ih hrest isFaithful_new]
      constructor
      · rintro ⟨others, ⟨hrest, rfl⟩, rfl⟩
        refine ⟨⟨⟨allowed, rfl⟩, hrest⟩, ?_⟩
        cases allowed <;> simp [hallowed, Except.toOption]
      · rintro ⟨⟨-, hrest⟩, rfl⟩
        refine ⟨_, ⟨hrest, rfl⟩, ?_⟩
        cases allowed <;> simp [hallowed, Except.toOption]

/-! ### Questions -/

/-- A **question** to a context. -/
inductive Question
  /-- For the ability derived for something. -/
  | ability (source : Source)
  /-- Whether a named action is allowed on an object. -/
  | decision (action : Value) (entity : Entity) (container : Option Entity)
  /-- To refuse a named action that is not allowed on an object. -/
  | authorization (action : Value) (entity : Entity) (container : Option Entity)
  /-- On which objects a named action is allowed. -/
  | selection (action : Value) (entities : List Entity)
  /-- For the visible records of a form. -/
  | list (form : Entity) (action : Value)
  /-- Which fields of a record may be read. -/
  | fields (entity : Entity)
  /-- For the data of a record that may be read. -/
  | data (entity : Entity)

/-- What a question is **answered** with. -/
inductive Answer
  | ability (ability : Ability)
  | decision (allowed : Bool)
  | granted
  | objects (entities : List Entity)
  | fields (names : List String)
  | data (members : List (String × Value))

namespace Question

/-- The step that answers a question. -/
def request (limit : Int) (store : Store) (context : Context) : Question → Request Answer
  | ability source => .ability <$> source.request limit store context
  | decision action entity container =>
    .decision <$> context.can limit store action entity container
  | authorization action entity container =>
    (fun _ => .granted) <$> context.authorize limit store action entity container
  | selection action entities => .objects <$> context.filterAllowed limit store action entities
  | list form action => .objects <$> context.visibleRecords limit store form action
  | fields entity => .fields <$> context.readableFields limit entity
  | data entity => .data <$> context.readableData limit entity

/-- A question about **stored** objects. -/
def IsStored (store : Store) : Question → Prop
  | ability source => source.IsStored store
  | decision _ entity container | authorization _ entity container =>
    entity ∈ store.entities ∧ ∀ other ∈ container, other ∈ store.entities
  | selection _ entities => ∀ entity ∈ entities, entity ∈ store.entities
  | list form _ => form ∈ store.entities
  | fields entity | data entity => entity ∈ store.entities

end Question

theorem steady_abilityForFields (hstore : store.IsToldApart) {entity : Entity}
    (hentity : entity ∈ store.entities) :
    Steady limit store context (context.abilityForFields limit entity) := by
  unfold abilityForFields
  split
  · obtain ⟨hform, -⟩ := hstore.linked.mem_of_form hstore.keyed hentity rfl
    exact steady_abilityForRecords hstore hform
  · exact steady_pure context.base
  · exact steady_settled _

/-- **Every question is steady.** -/
theorem steady_question (hstore : store.IsToldApart) {question : Question}
    (h : question.IsStored store) :
    Steady limit store context (question.request limit store context) := by
  cases question with
  | ability source => exact steady_map _ (steady_request hstore h)
  | decision action entity container => exact steady_map _ (steady_can hstore action h.1 h.2)
  | authorization action entity container =>
    exact steady_map _ (steady_authorize hstore action h.1 h.2)
  | selection action entities => exact steady_map _ (steady_filterAllowed hstore action h)
  | list form action => exact steady_map _ (steady_visibleRecords hstore h action)
  | fields entity =>
    exact steady_map _ (steady_bind (steady_abilityForFields hstore h) fun _ => steady_settled _)
  | data entity =>
    exact steady_map _ (steady_bind (steady_abilityForFields hstore h) fun _ => steady_settled _)

/-! ### One question after the other -/

/-- The outcomes of some questions, one after the other, and the session they leave. A question
that fails does not end the request. -/
def askAll (limit : Int) (store : Store) (context : Context) :
    List Question → Session → List (Except AccessError Answer) × Session
  | [], session => ([], session)
  | question :: rest, session =>
    let (outcome, after) := question.request limit store context session
    let (outcomes, last) := askAll limit store context rest after
    (outcome :: outcomes, last)

/-- **A run** of questions from a faithful session has the outcomes of fresh sessions, and ends
in a faithful session. -/
theorem askAll_of_isFaithful (hstore : store.IsToldApart) {questions : List Question}
    (hquestions : ∀ question ∈ questions, question.IsStored store)
    (hsession : session.IsFaithful limit store context) :
    (askAll limit store context questions session).1 =
        questions.map (fun question => (question.request limit store context {}).1) ∧
      (askAll limit store context questions session).2.IsFaithful limit store context := by
  induction questions generalizing session with
  | nil => exact ⟨rfl, hsession⟩
  | cons question rest ih =>
    obtain ⟨hquestion, hrest⟩ := List.forall_mem_cons.mp hquestions
    have hsteady : Steady limit store context (question.request limit store context) :=
      steady_question hstore hquestion
    obtain ⟨houtcomes, hlast⟩ := ih hrest (hsteady.faithful session hsession)
    refine ⟨?_, hlast⟩
    rw [askAll, List.map_cons, ← houtcomes, ← hsteady.outcome session hsession]
    rfl

variable {principal : Principal}

/-- **What a context was asked before makes no difference.** Let a context be asked any number of
questions about stored objects, in any order. Each has the outcome that it has on a fresh
session, be it an answer or a failure. All that is remembered afterwards was derived for stored
objects from the base ability, and the next question takes none of it away. A failure to derive
an ability leaves the memo as it was. A selection has an outcome if every decision does, and
then gives the objects that are allowed, in their order. -/
theorem outcomes_eq_fresh (hstore : store.IsToldApart) {questions : List Question}
    (hquestions : ∀ question ∈ questions, question.IsStored store) :
    let context := ofPrincipal principal
    let session := (askAll limit store context questions {}).2
    (askAll limit store context questions {}).1 =
        questions.map (fun question => (question.request limit store context {}).1) ∧
      session.IsFaithful limit store context ∧
      (∀ question : Question, question.IsStored store →
        (question.request limit store context session).2.RemembersAll session) ∧
      (∀ source : Source, source.IsStored store → ∀ error,
        (source.request limit store context session).1 = .error error →
          (source.request limit store context session).2.memo = session.memo) ∧
      ∀ (action : Value) (entities kept : List Entity),
        (∀ entity ∈ entities, entity ∈ store.entities) →
        ((context.filterAllowed limit store action entities session).1 = .ok kept ↔
          (∀ entity ∈ entities, ∃ allowed,
            (context.can limit store action entity none {}).1 = .ok allowed) ∧
          kept = entities.filter fun entity =>
            (context.can limit store action entity none {}).1.toOption == some true) := by
  intro context session
  obtain ⟨houtcomes, hfaithful⟩ : _ ∧ session.IsFaithful limit store context :=
    askAll_of_isFaithful hstore hquestions isFaithful_new
  refine ⟨houtcomes, hfaithful, ?_, ?_, ?_⟩
  · exact fun question hquestion => (steady_question hstore hquestion).remembers session
  · intro source _ error herror
    obtain ⟨events, hrequest⟩ : ∃ events, source.request limit store context =
        remembered source.key events (source.derived limit store context) :=
      source.exists_request_eq
    rw [hrequest] at herror ⊢
    exact memo_remembered_of_error herror
  · exact fun action entities kept hentities =>
      fst_filterAllowed_eq_ok hstore action hentities hfaithful

/-! ### A notice board -/

/-- A visitor: a principal with one role. -/
def visitor : Principal where
  userId := 1
  roles := [{ id := 2 }]

/-- A dashboard. -/
def notices : Entity := .dashboard { id := some 3 }

/-- A store of the dashboard and a page that displays it. The page may be deleted by somebody
else than the visitor. -/
def noticeBoard : Store :=
  .ofRows [notices,
    .page { id := some 4, grants := [{ type := "canDelete", roleId := 5 }] } none { id := some 3 }]

theorem isToldApart_noticeBoard : noticeBoard.IsToldApart where
  keyed := by
    refine Store.isKeyed_ofRows ?_ ?_
    · simp [notices, Entity.id]
    · simp +decide [notices, Entity.id]
  linked := Store.isLinked_ofRows _
  unique := by
    have hentities : noticeBoard.entities = [notices,
      .page { id := some 4, grants := [{ type := "canDelete", roleId := 5 }] } none
        { id := some 3 }] := rfl
    simp +decide [hentities, notices, Entity.id]

/-- The visitor is refused to delete the dashboard, and then asks as if nothing had happened. -/
theorem outcomes_eq_fresh_refused :
    let refused : Question := .authorization (.text "delete") notices none
    let allowed : Question := .decision (.text "read") notices none
    let context := ofPrincipal visitor
    (askAll 32 noticeBoard context [refused, allowed] {}).1 =
      [(refused.request 32 noticeBoard context {}).1,
        (allowed.request 32 noticeBoard context {}).1] := by
  intro refused allowed context
  have hnotices : notices ∈ noticeBoard.entities := List.mem_cons_self
  have hquestions : ∀ question ∈ [refused, allowed], question.IsStored noticeBoard := by
    intro question hquestion
    rcases List.mem_pair.mp hquestion with rfl | rfl
    · exact ⟨hnotices, by simp⟩
    · exact ⟨hnotices, by simp⟩
  exact (outcomes_eq_fresh isToldApart_noticeBoard hquestions).1

/-- **A refusal leaves something behind**: the visitor must not delete the dashboard, and to find
that out the ability for it has been derived, which is then remembered. -/
theorem authorize_remembers :
    let asked := (ofPrincipal visitor).authorize 32 noticeBoard (.text "delete") notices none {}
    (noticeBoard.IsToldApart ∧ notices ∈ noticeBoard.entities) ∧
      asked.1 = .error (.notGranted .delete .dashboard (some 3)) ∧
      asked.2.memo.map Prod.fst = [.content (some 3) none] := by
  intro asked
  exact ⟨⟨isToldApart_noticeBoard, List.mem_cons_self⟩, rfl, rfl⟩

end Context

end Clearance
