import Clearance.Context
import Clearance.Proofs.Store.Loading
import Clearance.Proofs.Table

/-!
# What a context remembers

A step of a request is given what has been gathered so far and gives back an outcome and what
has been gathered then; composed steps come apart by `Clearance.Context.bind_run`. An ability
that has been derived is remembered, and the next time it is not derived again. That makes no
difference as long as what is remembered under a key is what would be derived
(`Clearance.Context.fst_remembered`).

For records a key is the identifier of a form or of a resource, so it stands for one derivation
only if no two stored forms share an identifier. Then everything that is remembered has been
*derived* (`Clearance.Context.Session.IsDerived`): each step keeps to it, and so does every
session that a context reaches by questions about stored objects
(`Clearance.Context.isDerived_of_reaches`).
-/

namespace Clearance.Context

open Log (Event)

variable {α β : Type} {limit : Int} {store : Store} {context : Context} {session : Session}
  {key other : Key} {events : List Event} {derived derivedOther : Except AccessError Ability}

/-! ### Composed steps -/

/-- One step after the other; a failure of the first ends both. -/
theorem bind_run (step : Request α) (next : α → Request β) (session : Session) :
    (step >>= next) session =
      match step session with
      | (.ok a, after) => next a after
      | (.error error, after) => (.error error, after) := by
  rcases h : step session with ⟨_ | _, after⟩
  · simp only [bind, ExceptT.bind, ExceptT.mk, StateT.bind, h]
    rfl
  · simp only [bind, ExceptT.bind, ExceptT.mk, StateT.bind, h]
    rfl

/-- What a step gives, put into something else. -/
theorem map_run (f : α → β) (step : Request α) (session : Session) :
    (f <$> step) session =
      match step session with
      | (.ok a, after) => (.ok (f a), after)
      | (.error error, after) => (.error error, after) := by
  rw [← bind_pure_comp, bind_run]
  rfl

theorem snd_map_run (f : α → β) (step : Request α) (session : Session) :
    ((f <$> step) session).2 = (step session).2 := by
  rw [map_run]
  rcases step session with ⟨_ | _, _⟩ <;> rfl

/-! ### One key -/

/-- A session that **keeps to** a derivation: what it remembers under the key has been derived
so. -/
def Session.KeepsTo (session : Session) (key : Key) (derived : Except AccessError Ability) : Prop :=
  ∀ ability, session.recall? key = some ability → derived = .ok ability

/-- **What is remembered is what is derived.** -/
theorem fst_remembered (h : session.KeepsTo key derived) :
    (remembered key events derived session).1 = derived := by
  rw [remembered]
  split
  · next ability hability => exact (h ability hability).symm
  · cases derived <;> rfl

/-- A session still keeps to a derivation after another, unless that differs under the same
key. -/
theorem keepsTo_remembered (h : session.KeepsTo key derived)
    (hsame : other = key → derivedOther = derived) :
    (remembered other events derivedOther session).2.KeepsTo key derived := by
  rw [remembered]
  split
  · exact h
  · cases derivedOther with
    | error error => exact h
    | ok ability =>
      intro found hfound
      rw [Session.recall?, Table.lookup_cons] at hfound
      split at hfound
      · next hkey =>
        obtain rfl : ability = found := Option.some.inj hfound
        exact (hsame hkey.symm).symm
      · exact h found hfound

/-! ### All records -/

/-- The derivation for the records of a resource. -/
def resourceDerivation (limit : Int) (store : Store) (context : Context) (resourceId : Uuid) :
    Except AccessError Ability := do
  store.reached.mapError .fault
  (context.base.extendForForms limit (store.forms (some resourceId))).mapError .rule

/-- A session whose abilities for records have been **derived**, for a stored form or for the
forms of a resource. -/
structure Session.IsDerived (limit : Int) (store : Store) (context : Context) (session : Session) :
    Prop where
  /-- For a stored form. -/
  records : ∀ form ∈ store.entities, form.kind = .form →
    session.KeepsTo (.records form.id) (context.base.extendForRecords limit form)
  /-- For the forms of a resource. -/
  resources : ∀ resourceId,
    session.KeepsTo (.resourceRecords resourceId)
      (context.resourceDerivation limit store resourceId)

/-- A new session remembers nothing. -/
theorem isDerived_new : ({} : Session).IsDerived limit store context where
  records := by rintro form - - ability ⟨⟩
  resources := by rintro resourceId ability ⟨⟩

theorem isDerived_remembered (h : session.IsDerived limit store context)
    (hrecords : ∀ form ∈ store.entities, form.kind = .form → other = .records form.id →
      derivedOther = context.base.extendForRecords limit form)
    (hresources : ∀ resourceId, other = .resourceRecords resourceId →
      derivedOther = context.resourceDerivation limit store resourceId) :
    (remembered other events derivedOther session).2.IsDerived limit store context where
  records form hform hkind :=
    keepsTo_remembered (h.records form hform hkind) (hrecords form hform hkind)
  resources resourceId := keepsTo_remembered (h.resources resourceId) (hresources resourceId)

theorem isDerived_bind {step : Request α} {next : α → Request β}
    (hstep : (step session).2.IsDerived limit store context)
    (hnext : ∀ a after, after.IsDerived limit store context →
      (next a after).2.IsDerived limit store context) :
    ((step >>= next) session).2.IsDerived limit store context := by
  rw [bind_run]
  rcases hrun : step session with ⟨_ | a, after⟩ <;> rw [hrun] at hstep
  · exact hstep
  · exact hnext a after hstep

/-! ### Steps -/

theorem isDerived_abilityForContent (h : session.IsDerived limit store context)
    (entity : Entity) (container : Option Entity) :
    (context.abilityForContent store entity container session).2.IsDerived limit store context :=
  isDerived_remembered h (fun _ _ _ hkey => nomatch hkey) fun _ hkey => nomatch hkey

theorem isDerived_abilityForApplication (h : session.IsDerived limit store context)
    (application : Entity) :
    (context.abilityForApplication store application session).2.IsDerived limit store context :=
  isDerived_remembered h (fun _ _ _ hkey => nomatch hkey) fun _ hkey => nomatch hkey

/-- The ability for a stored form is remembered under its identifier, and no other form has
it. -/
theorem isDerived_abilityForRecords (hkeyed : store.IsKeyed)
    (h : session.IsDerived limit store context) {form : Entity} (hform : form ∈ store.entities)
    (hkind : form.kind = .form) :
    (context.abilityForRecords limit form session).2.IsDerived limit store context := by
  refine isDerived_remembered h (fun stored hstored hstoredKind hkey => ?_)
    fun _ hkey => nomatch hkey
  rw [hkeyed.eq_of_id_eq hform hstored (.inl (hkind.trans hstoredKind.symm)) (Key.records.inj hkey)]

theorem isDerived_abilityForResourceRecords (h : session.IsDerived limit store context)
    (resourceId : Uuid) :
    (context.abilityForResourceRecords limit store resourceId session).2.IsDerived
      limit store context := by
  refine isDerived_remembered h (fun _ _ _ hkey => nomatch hkey) fun _ hkey => ?_
  obtain rfl := Key.resourceRecords.inj hkey
  rfl

/-- A stored record was loaded with a stored form. -/
theorem isDerived_derivedAbility (hkeyed : store.IsKeyed) (hlinked : store.IsLinked)
    (h : session.IsDerived limit store context) {entity : Entity}
    (hentity : entity ∈ store.entities) (container : Option Entity) :
    (context.derivedAbility limit store entity container session).2.IsDerived
      limit store context := by
  unfold derivedAbility
  split
  · rw [snd_map_run]
    exact isDerived_abilityForContent h entity container
  · split
    · rw [snd_map_run]
      obtain ⟨hform, hkind⟩ := hlinked.mem_of_form hkeyed hentity rfl
      exact isDerived_abilityForRecords hkeyed h hform hkind
    · exact h

theorem isDerived_can (hkeyed : store.IsKeyed) (hlinked : store.IsLinked)
    (h : session.IsDerived limit store context) (action : Value) {entity : Entity}
    (hentity : entity ∈ store.entities) (container : Option Entity) :
    (context.can limit store action entity container session).2.IsDerived limit store context := by
  rw [can]
  refine isDerived_bind h fun answer after hafter => ?_
  split
  · exact hafter
  · refine isDerived_bind (isDerived_derivedAbility hkeyed hlinked hafter hentity container) ?_
    intro derived last hlast
    cases derived <;> exact hlast

theorem isDerived_authorize (hkeyed : store.IsKeyed) (hlinked : store.IsLinked)
    (h : session.IsDerived limit store context) (action : Value) {entity : Entity}
    (hentity : entity ∈ store.entities) (container : Option Entity) :
    (context.authorize limit store action entity container session).2.IsDerived
      limit store context := by
  rw [authorize]
  refine isDerived_bind (isDerived_can hkeyed hlinked h action hentity container) ?_
  intro allowed after hafter
  split
  · exact hafter
  · exact isDerived_bind hafter fun _ _ hlast => hlast

theorem isDerived_filterAllowed (hkeyed : store.IsKeyed) (hlinked : store.IsLinked)
    (h : session.IsDerived limit store context) (action : Value) {entities : List Entity}
    (hentities : ∀ entity ∈ entities, entity ∈ store.entities) :
    (context.filterAllowed limit store action entities session).2.IsDerived
      limit store context := by
  induction entities generalizing session with
  | nil => exact h
  | cons entity rest ih =>
    obtain ⟨hentity, hrest⟩ := List.forall_mem_cons.mp hentities
    rw [filterAllowed]
    refine isDerived_bind (isDerived_can hkeyed hlinked h action hentity none) ?_
    intro allowed after hafter
    exact isDerived_bind (ih hafter hrest) fun _ _ hlast => hlast

/-- What decides about the fields of a stored record is the ability for its form. -/
theorem isDerived_abilityForFields (hkeyed : store.IsKeyed) (hlinked : store.IsLinked)
    (h : session.IsDerived limit store context) {entity : Entity}
    (hentity : entity ∈ store.entities) :
    (context.abilityForFields limit entity session).2.IsDerived limit store context := by
  unfold abilityForFields
  split
  · obtain ⟨hform, hkind⟩ := hlinked.mem_of_form hkeyed hentity rfl
    exact isDerived_abilityForRecords hkeyed h hform hkind
  · exact h
  · exact h

theorem isDerived_visibleRecords (hkeyed : store.IsKeyed)
    (h : session.IsDerived limit store context)
    {form : Entity} (hform : form ∈ store.entities) (hkind : form.kind = .form) (action : Value) :
    (context.visibleRecords limit store form action session).2.IsDerived limit store context := by
  rw [visibleRecords]
  refine isDerived_bind (isDerived_abilityForRecords hkeyed h hform hkind) fun _ after hafter => ?_
  exact isDerived_bind hafter fun _ _ hlast => hlast

/-! ### Answers -/

theorem fst_abilityForRecords (h : session.IsDerived limit store context) {form : Entity}
    (hform : form ∈ store.entities) (hkind : form.kind = .form) :
    (context.abilityForRecords limit form session).1 = context.base.extendForRecords limit form :=
  fst_remembered (h.records form hform hkind)

theorem fst_abilityForResourceRecords (h : session.IsDerived limit store context)
    (resourceId : Uuid) :
    (context.abilityForResourceRecords limit store resourceId session).1 =
      context.resourceDerivation limit store resourceId :=
  fst_remembered (h.resources resourceId)

/-! ### Runs -/

/-- The sessions that a context **reaches** by questions about stored objects. -/
inductive Reaches (limit : Int) (store : Store) (context : Context) : Session → Prop
  /-- At first nothing has been asked. -/
  | start : Reaches limit store context {}
  /-- Asked for the ability for a content. -/
  | content {session : Session} (h : Reaches limit store context session) (entity : Entity)
      (container : Option Entity) :
      Reaches limit store context (context.abilityForContent store entity container session).2
  /-- Asked for the ability for an application. -/
  | application {session : Session} (h : Reaches limit store context session) (entity : Entity) :
      Reaches limit store context (context.abilityForApplication store entity session).2
  /-- Asked for the ability for a stored form. -/
  | records {session : Session} (h : Reaches limit store context session) {form : Entity}
      (hform : form ∈ store.entities) (hkind : form.kind = .form) :
      Reaches limit store context (context.abilityForRecords limit form session).2
  /-- Asked for the ability for a resource. -/
  | resource {session : Session} (h : Reaches limit store context session) (resourceId : Uuid) :
      Reaches limit store context
        (context.abilityForResourceRecords limit store resourceId session).2
  /-- Asked whether an action is allowed on a stored object. -/
  | decision {session : Session} (h : Reaches limit store context session) (action : Value)
      {entity : Entity} (hentity : entity ∈ store.entities) (container : Option Entity) :
      Reaches limit store context (context.can limit store action entity container session).2
  /-- Asked to refuse an action that is not allowed on a stored object. -/
  | authorization {session : Session} (h : Reaches limit store context session) (action : Value)
      {entity : Entity} (hentity : entity ∈ store.entities) (container : Option Entity) :
      Reaches limit store context
        (context.authorize limit store action entity container session).2
  /-- Asked on which of some stored objects an action is allowed. -/
  | selection {session : Session} (h : Reaches limit store context session) (action : Value)
      {entities : List Entity} (hentities : ∀ entity ∈ entities, entity ∈ store.entities) :
      Reaches limit store context (context.filterAllowed limit store action entities session).2
  /-- Asked which fields of a stored record may be read. -/
  | fields {session : Session} (h : Reaches limit store context session) {entity : Entity}
      (hentity : entity ∈ store.entities) :
      Reaches limit store context (context.readableFields limit entity session).2
  /-- Asked for the data of a stored record that may be read. -/
  | data {session : Session} (h : Reaches limit store context session) {entity : Entity}
      (hentity : entity ∈ store.entities) :
      Reaches limit store context (context.readableData limit entity session).2
  /-- Asked for the visible records of a stored form. -/
  | list {session : Session} (h : Reaches limit store context session) {form : Entity}
      (hform : form ∈ store.entities) (hkind : form.kind = .form) (action : Value) :
      Reaches limit store context (context.visibleRecords limit store form action session).2

/-- **Whatever a context has been asked**, what it remembers has been derived. -/
theorem isDerived_of_reaches (hkeyed : store.IsKeyed) (hlinked : store.IsLinked)
    (h : Reaches limit store context session) : session.IsDerived limit store context := by
  induction h with
  | start => exact isDerived_new
  | content _ entity container ih => exact isDerived_abilityForContent ih entity container
  | application _ entity ih => exact isDerived_abilityForApplication ih entity
  | records _ hform hkind ih => exact isDerived_abilityForRecords hkeyed ih hform hkind
  | resource _ resourceId ih => exact isDerived_abilityForResourceRecords ih resourceId
  | decision _ action hentity container ih =>
    exact isDerived_can hkeyed hlinked ih action hentity container
  | authorization _ action hentity container ih =>
    exact isDerived_authorize hkeyed hlinked ih action hentity container
  | selection _ action hentities ih =>
    exact isDerived_filterAllowed hkeyed hlinked ih action hentities
  | fields _ hentity ih =>
    exact isDerived_bind (isDerived_abilityForFields hkeyed hlinked ih hentity)
      fun _ _ hlast => hlast
  | data _ hentity ih =>
    exact isDerived_bind (isDerived_abilityForFields hkeyed hlinked ih hentity)
      fun _ _ hlast => hlast
  | list _ hform hkind action ih => exact isDerived_visibleRecords hkeyed ih hform hkind action

end Clearance.Context
