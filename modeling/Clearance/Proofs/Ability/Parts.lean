import Clearance.Proofs.Ability.Repetition

/-!
# The parts of an application and of a workflow

An ability is extended for a whole application page by page, and for a whole workflow step by
step, each time from the ability that the last extension gave. What one page gets could then
depend on those before it. It does not: each part is decided about as if the ability had been
extended for it alone (`Clearance.Ability.exists_alone`). The rules that are added decide about
the other parts only, and none of them is asked for what lies above a part.

What lies above a page is one application, and so the extension that is handed the application
borrows from the same as the one that walks (`Clearance.Ability.lendersAbove_page`). What lies
above a step is its workflow, the pages that display the workflow, and their applications.

With the rule for creating more parts this tells both extensions to the end
(`Clearance.Ability.extendForParts_exact`).
-/

namespace Clearance

open Outcome

namespace Ability

variable {ability extended alone next : Ability} {action : Action} {kind : Kind}
  {entity other container : Entity} {entities lenders : List Entity} {application : Option Entity}
  {store : Store}

/-! ### One object -/

theorem visits_lenders (hlenders : lendersAbove store entity application = .ok lenders) :
    Visits ((lendersAbove store entity application).map ([·])) (· ∈ lenders) :=
  ⟨[lenders], by rw [hlenders]; rfl, by simp⟩

/-- **What an object is lent** from what is above it. Every lendable action is decided about. -/
theorem exists_allows_alone (hid : entity.id.isSome = true)
    (hlenders : lendersAbove store entity application = .ok lenders)
    (h : ability.extendForContainer store entity application = .ok alone)
    (haction : action ∈ Action.lendable) :
    ∃ allowed, alone.allows action entity = .ok allowed ∧
      (allowed = true ↔ ability.allows action entity = .ok true ∨
        ∃ lender ∈ lenders, ability.Lends action lender) := by
  rw [extendForContainer_eq_borrowFor] at h
  obtain ⟨allowed, hallowed⟩ := exists_allows_of_borrowFor h haction
  have hiff := allows_borrowFor_iff (visits_lenders hlenders) h haction
  exact ⟨allowed, hallowed, by simpa [hallowed, hid] using hiff⟩

/-- **What goes wrong** is a fault of the ability on the object or on what is above it. -/
theorem fault_of_extendForContainer {error : AccessError}
    (hlenders : lendersAbove store entity application = .ok lenders)
    (h : ability.extendForContainer store entity application = .error error) :
    ∃ fault, error = .fault fault ∧ ∃ action ∈ Action.lendable,
      ability.allows action entity = .error fault ∨ ∃ lender ∈ lenders,
        lender.kind ≠ .application ∧ ability.allows action lender = .error fault := by
  rw [extendForContainer_eq_borrowFor] at h
  obtain ⟨fault, rfl, action, haction, found, hfault, rfl | ⟨hlender, hkind⟩⟩ :=
    fault_of_borrowFor (visits_lenders hlenders) h
  · exact ⟨fault, rfl, action, haction, .inl hfault⟩
  · exact ⟨fault, rfl, action, haction, .inr ⟨found, hlender, hkind, hfault⟩⟩

/-- An extension for one object decides about what the object does not stand for as before, and
about no other action. -/
theorem check_extendForContainer
    (h : ability.extendForContainer store entity application = .ok next)
    (hnot : action ∈ Action.lendable → ¬ entity.StandsFor kind other) :
    next.check action kind other = ability.check action kind other := by
  rw [extendForContainer_eq_borrowFor] at h
  exact check_borrowFor_of_other h hnot

/-- Nor does it make another action possible. -/
theorem possible_extendForContainer
    (h : ability.extendForContainer store entity application = .ok next)
    (haction : action ∉ Action.lendable) :
    next.possible action kind = ability.possible action kind := by
  rw [extendForContainer_eq_borrowFor] at h
  obtain ⟨lent, rfl, hlent⟩ := exists_borrows h
  rw [Bool.eq_iff_iff, possible_borrowed hlent.ne_manage]
  exact or_iff_right fun hboth => haction (hlent.added action hboth.1).1

theorem principal_extendForContainer
    (h : ability.extendForContainer store entity application = .ok next) :
    next.principal = ability.principal := by
  rw [extendForContainer_eq_borrowFor] at h
  obtain ⟨lent, rfl, -⟩ := exists_borrows h
  rfl

/-- **Extended for an object, abilities that decide alike for it do so still.** -/
theorem exists_alone_of_decidesAlike
    (halike : extended.DecidesAlike ability entity
      ((lendersAbove store entity application).map ([·])))
    (h : extended.extendForContainer store entity application = .ok next) :
    ∃ alone, ability.extendForContainer store entity application = .ok alone ∧
      ∀ {action kind other},
        extended.check action kind other = ability.check action kind other →
          next.check action kind other = alone.check action kind other := by
  rw [extendForContainer_eq_borrowFor] at h ⊢
  obtain ⟨lent, rfl, hlent⟩ := exists_borrows h
  obtain ⟨alone, halone⟩ := (halike.symm.borrows hlent).exists_borrowFor
  refine ⟨alone, halone, fun {action kind other} hsame => ?_⟩
  obtain ⟨same, rfl, hsameLent⟩ := exists_borrows halone
  have hmem : action ∈ lent ↔ action ∈ same :=
    ⟨(halike.symm.borrows hlent).mem_of_mem hsameLent,
      hsameLent.mem_of_mem (halike.symm.borrows hlent)⟩
  rw [check_borrowed hlent.ne_manage, check_borrowed hsameLent.ne_manage, hsame]
  simp only [hmem]

/-! ### One object after the other -/

theorem check_extendForContainers
    (h : ability.extendForContainers store application entities = .ok extended)
    (hnot : action ∈ Action.lendable → ∀ entity ∈ entities, ¬ entity.StandsFor kind other) :
    extended.check action kind other = ability.check action kind other :=
  foldlM_preserves (P := fun state => state.check action kind other =
      ability.check action kind other)
    (fun _ _ entity hentity hstate hnext => (check_extendForContainer hnext fun haction =>
      hnot haction entity hentity).trans hstate) rfl h

theorem possible_extendForContainers
    (h : ability.extendForContainers store application entities = .ok extended)
    (haction : action ∉ Action.lendable) :
    extended.possible action kind = ability.possible action kind :=
  foldlM_preserves (P := fun state => state.possible action kind = ability.possible action kind)
    (fun _ _ _ _ hstate hnext => (possible_extendForContainer hnext haction).trans hstate) rfl h

section Apart

variable {all : List Entity} (hall : AreApart store application all)

include hall

/-- What is borrowed for one of several objects that are apart makes no difference to what another
borrows. -/
theorem decidesAlike_of_extendForContainer {first : Entity} (hfirst : first ∈ all)
    (hentity : entity ∈ all) (hne : first.id ≠ entity.id)
    (hnext : ability.extendForContainer store first application = .ok next) :
    next.DecidesAlike ability entity ((lendersAbove store entity application).map ([·])) := by
  have hnot : ¬ first.StandsFor entity.kind entity := fun hstands => hne hstands.2.1.symm
  refine ⟨principal_extendForContainer hnext,
    fun action _ => check_extendForContainer hnext fun _ => hnot, ?_⟩
  intro chains hchains chain hchain lender hlender hkind action _
  obtain ⟨lenders, hlenders, rfl⟩ := map_eq_ok.mp hchains
  obtain rfl := List.mem_singleton.mp hchain
  refine check_extendForContainer hnext fun _ hstands => hnot ?_
  exact hall.apart entity hentity first hfirst chain hlenders lender hlender hkind hstands

/-- **Each object is decided about as if it were extended for alone**, by induction on the
objects: what the first borrows makes no difference to the others, and what these borrow decides
about the first no more. -/
theorem exists_alone : ∀ {entities : List Entity} {ability : Ability},
    (∀ entity ∈ entities, entity ∈ all) → (entities.Pairwise fun a b => a.id ≠ b.id) →
    ability.extendForContainers store application entities = .ok extended →
    ∀ entity ∈ entities, ∃ alone,
      ability.extendForContainer store entity application = .ok alone ∧
        ∀ action, extended.allows action entity = alone.allows action entity := by
  intro entities
  induction entities with
  | nil => intro ability _ _ _ entity hentity; cases hentity
  | cons first rest ih =>
    intro ability hmem hdistinct h
    obtain ⟨hfirst, hrest⟩ := List.forall_mem_cons.mp hmem
    obtain ⟨hne, hdistinct⟩ := List.pairwise_cons.mp hdistinct
    obtain ⟨next, hnext, h⟩ := bind_eq_ok.mp h
    refine List.forall_mem_cons.mpr ⟨⟨next, hnext, fun action => ?_⟩, fun entity hentity => ?_⟩
    · exact check_extendForContainers h fun _ entity hentity hstands =>
        hne entity hentity hstands.2.1
    · have halike := decidesAlike_of_extendForContainer hall hfirst (hrest entity hentity)
        (hne entity hentity) hnext
      obtain ⟨alone, halone, hsame⟩ := ih hrest hdistinct h entity hentity
      obtain ⟨other, hother, hchecks⟩ := exists_alone_of_decidesAlike halike halone
      refine ⟨other, hother, fun action => (hsame action).trans (hchecks ?_)⟩
      exact check_extendForContainer hnext fun _ hstands => hne entity hentity hstands.2.1.symm

/-- What goes wrong with one of them goes wrong alone. -/
theorem fault_of_extendForContainers {error : AccessError}
    (hlenders : ∀ entity ∈ all, ∃ lenders, lendersAbove store entity application = .ok lenders) :
    ∀ {entities : List Entity} {ability : Ability},
    (∀ entity ∈ entities, entity ∈ all) → (entities.Pairwise fun a b => a.id ≠ b.id) →
    ability.extendForContainers store application entities = .error error →
    ∃ fault, error = .fault fault ∧ ∃ action ∈ Action.lendable, ∃ entity ∈ entities,
      ability.allows action entity = .error fault ∨
        ∃ lenders, lendersAbove store entity application = .ok lenders ∧ ∃ lender ∈ lenders,
          lender.kind ≠ .application ∧ ability.allows action lender = .error fault := by
  intro entities
  induction entities with
  | nil => intro ability _ _ h; cases h
  | cons first rest ih =>
    intro ability hmem hdistinct h
    obtain ⟨hfirst, hrest⟩ := List.forall_mem_cons.mp hmem
    obtain ⟨hne, hdistinct⟩ := List.pairwise_cons.mp hdistinct
    rcases bind_eq_error.mp h with h | ⟨next, hnext, h⟩
    · obtain ⟨lenders, habove⟩ := hlenders first hfirst
      obtain ⟨fault, rfl, action, haction, hfault⟩ := fault_of_extendForContainer habove h
      exact ⟨fault, rfl, action, haction, first, List.mem_cons_self,
        hfault.imp_right fun habroad => ⟨lenders, habove, habroad⟩⟩
    · obtain ⟨fault, rfl, action, haction, entity, hentity, hfault⟩ := ih hrest hdistinct h
      have halike := decidesAlike_of_extendForContainer hall hfirst (hrest entity hentity)
        (hne entity hentity) hnext
      refine ⟨fault, rfl, action, haction, entity, List.mem_cons_of_mem _ hentity, ?_⟩
      rw [halike.entity action haction] at hfault
      refine hfault.imp_right ?_
      rintro ⟨lenders, habove, lender, hlender, hkind, hallows⟩
      refine ⟨lenders, habove, lender, hlender, hkind, ?_⟩
      rwa [halike.lenders _ (by rw [habove]; rfl) lenders (List.mem_singleton_self _) lender hlender
        hkind action haction] at hallows

end Apart

/-! ### What is above a page or a step -/

section Stored

variable (hopen : store.isOpen = true) (hkeyed : store.IsKeyed) {workflow page step : Entity}

include hopen hkeyed

/-- **A walk from a page** comes to the application that could have been handed over. -/
theorem lendersAbove_page {application : Entity} (hstored : application ∈ store.entities)
    (hkind : application.kind = .application) (hpage : page ∈ store.pagesOf application.id) :
    lendersAbove store page none = lendersAbove store page (some application) := by
  have hwalk := Store.walk_page hopen hkeyed hstored hkind hpage
  change (store.walk page).map (fun walk => walk.visited.drop 1) = .ok [application]
  rw [hwalk]
  rfl

/-- **A walk from a step** comes to all that is reached from its workflow, and if it came to the
step a second time that would lend nothing new. -/
theorem exists_lendersAbove_step (hstored : workflow ∈ store.entities)
    (hkind : workflow.kind = .workflow) (hstep : step ∈ store.stepsOf workflow.id) :
    ∃ lenders, lendersAbove store step none = .ok lenders ∧
      (∀ lender ∈ lenders, lender = step ∨ store.Reaches workflow lender) ∧
      ∀ lender, store.Reaches workflow lender → lender ∈ lenders := by
  obtain ⟨hstepStored, hstepKind, hisStep⟩ := Store.mem_ofKindWhere.mp hstep
  obtain ⟨walk, hwalk, hvisited⟩ := Store.exists_walk hopen hkeyed hstepStored (.inl hstepKind)
  obtain ⟨rest, hrest⟩ := Store.exists_visited_eq_cons hwalk
  have hreaches : ∀ lender, lender ∈ step :: rest ↔ lender = step ∨ store.Reaches workflow lender :=
    fun lender => by
      rw [← hrest, hvisited, Store.reaches_iff_of_step hkeyed hstored hkind hisStep]
  refine ⟨rest, ?_, fun lender hlender => (hreaches lender).mp (List.mem_cons_of_mem _ hlender),
    fun lender hreach => ?_⟩
  · rw [lendersAbove, hwalk]
    exact congrArg Except.ok (by simp only [hrest, List.drop_succ_cons, List.drop_zero])
  · refine (List.mem_cons.mp ((hreaches lender).mpr (.inr hreach))).resolve_left ?_
    rintro rfl
    -- nothing below a workflow is reached from it
    have hnot : ∀ start entity, store.Reaches start entity → start.level ≤ entity.level := by
      intro start entity hreach
      induction hreach with
      | refl => exact Nat.le_refl _
      | tail _ hlast ih =>
        have := hlast.level_eq
        omega
    have hlevel := hnot workflow lender hreach
    cases workflow <;> cases hkind
    cases lender <;> cases hstepKind
    simp [Entity.level] at hlevel

end Stored

/-- What **lends** an action to the steps of a workflow: the workflow or a page that displays it,
if the ability allows the action there, or the application of such a page, if a role of the
principal is on its list. -/
def LendsToSteps (ability : Ability) (store : Store) (workflow : Entity) (action : Action) : Prop :=
  ability.allows action workflow = .ok true ∨ ∃ page ∈ store.pagesDisplaying workflow.id,
    ability.allows action page = .ok true ∨ ∃ application ∈ store.entities,
      application.kind = .application ∧ Store.isPageOf application.id page = true ∧
        ability.Lends action application

/-- Something other than an application lends what the ability allows on it. -/
theorem lends_iff_of_kind_ne (hkind : entity.kind ≠ .application) :
    ability.Lends action entity ↔ ability.allows action entity = .ok true := by
  rw [Lends, if_neg hkind]

theorem lendsToSteps_iff (hkeyed : store.IsKeyed) {workflow : Entity}
    (hkind : workflow.kind = .workflow) : ability.LendsToSteps store workflow action ↔
      ∃ lender, store.Reaches workflow lender ∧ ability.Lends action lender := by
  have hpages : ∀ page ∈ store.pagesDisplaying workflow.id, page.kind = .page := fun page hpage =>
    (Store.mem_ofKindWhere.mp hpage).2.1
  simp only [Store.reaches_iff_of_workflow hkind, or_and_right, exists_or, exists_eq_left]
  rw [LendsToSteps, lends_iff_of_kind_ne (by rw [hkind]; decide)]
  refine or_congr_right ⟨?_, ?_⟩
  · rintro ⟨page, hpage, hlends⟩
    have hpageKind := hpages page hpage
    rcases hlends with hallows | ⟨application, hstored, happlication, hisPage, hlends⟩
    · exact ⟨page, ⟨page, hpage, .refl⟩,
        (lends_iff_of_kind_ne (by rw [hpageKind]; decide)).mpr hallows⟩
    · exact ⟨application, ⟨page, hpage, (Store.reaches_iff_of_page hkeyed hpageKind).mpr
        (.inr ⟨hstored, happlication, hisPage⟩)⟩, hlends⟩
  · rintro ⟨lender, ⟨page, hpage, hreach⟩, hlends⟩
    have hpageKind := hpages page hpage
    refine ⟨page, hpage, ?_⟩
    rcases (Store.reaches_iff_of_page hkeyed hpageKind).mp hreach with
      rfl | ⟨hstored, happlication, hisPage⟩
    · exact .inl ((lends_iff_of_kind_ne (by rw [hpageKind]; decide)).mp hlends)
    · exact .inr ⟨lender, hstored, happlication, hisPage, hlends⟩

/-- What lends to the steps of a workflow and is asked for it: an application is not. -/
theorem eq_or_mem_pagesDisplaying (hkeyed : store.IsKeyed) {workflow lender : Entity}
    (hkind : workflow.kind = .workflow) (hreaches : store.Reaches workflow lender)
    (hnot : lender.kind ≠ .application) :
    lender = workflow ∨ lender ∈ store.pagesDisplaying workflow.id := by
  refine ((Store.reaches_iff_of_workflow hkind).mp hreaches).imp_right ?_
  rintro ⟨page, hpage, hreach⟩
  rcases (Store.reaches_iff_of_page hkeyed (Store.mem_ofKindWhere.mp hpage).2.1).mp hreach with
    rfl | ⟨-, happlication, -⟩
  · exact hpage
  · exact absurd happlication hnot

/-! ### Creating more of them -/

/-- **Who may update the container may create more parts**, and nobody else who could not. -/
theorem possible_allowCreating (h : ability.allowCreating kind container = .ok extended) :
    extended.possible .create kind = true ↔
      ability.possible .create kind = true ∨ ability.allows .update container = .ok true := by
  obtain ⟨mayUpdate, hupdate, h⟩ := bind_eq_ok.mp h
  rw [mapError_eq_ok] at hupdate
  obtain rfl := Except.ok.inj h
  rw [hupdate]
  cases hpossible : ability.possible .create kind with
  | true => simp [hpossible]
  | false =>
    cases mayUpdate with
    | false => simp [hpossible]
    | true =>
      refine iff_of_true ?_ (.inr rfl)
      exact possible_extend_of_allowing (fun rule hrule => (Rule.mem_each.mp hrule).2.2.2)
        ⟨_, List.mem_singleton_self _, Rule.isAbout_iff.mpr ⟨rfl, .inr rfl⟩⟩

theorem fault_of_allowCreating {error : AccessError}
    (h : ability.allowCreating kind container = .error error) :
    ∃ fault, error = .fault fault ∧ ability.allows .update container = .error fault := by
  rcases bind_eq_error.mp h with h | ⟨mayUpdate, -, h⟩
  · obtain ⟨fault, hfault, rfl⟩ := mapError_eq_error.mp h
    exact ⟨fault, rfl, hfault⟩
  · cases h

/-! ### All parts of a container -/

/-- An ability that **covers** the parts of a container which are all of one kind. `Lent` tells
what is lent to each of them. -/
structure Covers (extended ability : Ability) (store : Store) (container : Entity) (kind : Kind)
    (parts : List Entity) (Lent : Action → Prop) : Prop where
  /-- A part may be used by whoever could use it before, and whoever is lent to. -/
  each : ∀ part ∈ parts, ∀ action ∈ Action.lendable,
    ∃ allowed, extended.allows action part = .ok allowed ∧
      (allowed = true ↔ ability.allows action part = .ok true ∨ Lent action)
  /-- No part gets anything from the others: it is decided about as if the ability had been
  extended for it alone, with a walk through the store. -/
  alone : ∀ part ∈ parts, ∃ alone, ability.extendForContainer store part none = .ok alone ∧
    ∀ action ∈ Action.lendable, extended.allows action part = alone.allows action part
  /-- Whoever may update the container may create parts. -/
  creating : extended.possible .create kind = true ↔
    ability.possible .create kind = true ∨ ability.allows .update container = .ok true
  /-- About the rest it is decided as before. -/
  others : ∀ action asked other,
    (action ∈ Action.lendable → ∀ part ∈ parts, ¬ part.StandsFor asked other) →
    ¬ (action = .create ∧ asked = kind) →
      extended.check action asked other = ability.check action asked other

/-- Objects of a store that are **parts** of a container: they are apart, no two have the same
identifier, and none is of the kind of the container. -/
structure ArePartsOf (store : Store) (application : Option Entity) (container : Entity)
    (parts : List Entity) : Prop where
  /-- They can be extended for one after the other. -/
  apart : AreApart store application parts
  /-- No two have the same identifier. -/
  distinct : parts.Pairwise fun a b => a.id ≠ b.id
  /-- The container is of another kind. -/
  kind_ne : ∀ part ∈ parts, part.kind ≠ container.kind

namespace ArePartsOf

variable {parts : List Entity} {settled : Ability} {Lent : Action → Prop}
  (hparts : ArePartsOf store application container parts)

include hparts

/-- What parts borrow makes no difference to the container. -/
theorem allows_container
    (hsettled : ability.extendForContainers store application parts = .ok settled) :
    settled.allows action container = ability.allows action container :=
  check_extendForContainers hsettled fun _ part hpart hstands =>
    hparts.kind_ne part hpart hstands.1.symm

/-- **One part after the other, and then the rule for creating more.** -/
theorem covers
    (hlent : ∀ part ∈ parts, ∃ lenders, lendersAbove store part application = .ok lenders ∧
      lendersAbove store part none = .ok lenders ∧ ∀ action,
        (ability.allows action part = .ok true ∨ ∃ lender ∈ lenders, ability.Lends action lender) ↔
          ability.allows action part = .ok true ∨ Lent action)
    (hsettled : ability.extendForContainers store application parts = .ok settled)
    (h : settled.allowCreating kind container = .ok extended) :
    extended.Covers ability store container kind parts Lent where
  each part hpart action haction := by
    obtain ⟨lenders, habove, -, hiff⟩ := hlent part hpart
    obtain ⟨alone, halone, hsame⟩ :=
      exists_alone hparts.apart (fun _ => id) hparts.distinct hsettled part hpart
    obtain ⟨allowed, hallowed, htrue⟩ :=
      exists_allows_alone (hparts.apart.identified part hpart) habove halone haction
    refine ⟨allowed, ?_, htrue.trans (hiff action)⟩
    rw [allows_of_allowCreating h haction, hsame, hallowed]
  alone part hpart := by
    obtain ⟨lenders, habove, hwalked, -⟩ := hlent part hpart
    obtain ⟨alone, halone, hsame⟩ :=
      exists_alone hparts.apart (fun _ => id) hparts.distinct hsettled part hpart
    refine ⟨alone, ?_, fun action haction => ?_⟩
    · rwa [extendForContainer, hwalked, ← habove, ← extendForContainer]
    · rw [allows_of_allowCreating h haction, hsame]
  creating := by
    rw [possible_allowCreating h, hparts.allows_container hsettled,
      possible_extendForContainers hsettled (by decide)]
  others action asked other hnot hcreate := by
    rw [check_allowCreating h hcreate]
    exact check_extendForContainers hsettled hnot

/-- What goes wrong goes wrong on the container, on a part, or on something above one. -/
theorem fault {error : AccessError}
    (hlenders : ∀ part ∈ parts, ∃ lenders, lendersAbove store part application = .ok lenders)
    (h : ((ability.extendForContainers store application parts).bind fun settled =>
      settled.allowCreating kind container) = .error error) :
    ∃ fault, error = .fault fault ∧ ∃ action ∈ Action.lendable,
      ability.allows action container = .error fault ∨ ∃ part ∈ parts,
        ability.allows action part = .error fault ∨
          ∃ lenders, lendersAbove store part application = .ok lenders ∧ ∃ lender ∈ lenders,
            lender.kind ≠ .application ∧ ability.allows action lender = .error fault := by
  rcases bind_eq_error.mp h with h | ⟨settled, hsettled, h⟩
  · obtain ⟨fault, rfl, action, haction, hfault⟩ :=
      fault_of_extendForContainers hparts.apart hlenders (fun _ => id) hparts.distinct h
    exact ⟨fault, rfl, action, haction, .inr hfault⟩
  · obtain ⟨fault, rfl, hfault⟩ := fault_of_allowCreating h
    rw [hparts.allows_container hsettled] at hfault
    exact ⟨fault, rfl, .update, by decide, .inl hfault⟩

end ArePartsOf

/-! ### Applications and workflows -/

/-- An extension **fails for a reason** if the store is not there, or if the ability itself fails
to decide about one of the objects that it is asked about. -/
def FailsFor (ability : Ability) (store : Store) (asked : List Entity) (error : AccessError) :
    Prop :=
  ∃ fault, error = .fault fault ∧ (store.reached = .error fault ∨
    ∃ action ∈ Action.lendable, ∃ entity ∈ asked, ability.allows action entity = .error fault)

section Extended

variable {workflow application : Entity}

theorem arePartsOf_pagesOf (hkeyed : store.IsKeyed) (hkind : application.kind = .application) :
    ArePartsOf store (some application) application (store.pagesOf application.id) where
  apart := areApart_pagesOf hkeyed hkind
  distinct := (hkeyed.pairwise_ofKindWhere .page _).imp Entity.Precedes.id_ne
  kind_ne page hpage := by
    rw [(Store.mem_ofKindWhere.mp hpage).2.1, hkind]
    decide

theorem arePartsOf_stepsOf (hopen : store.isOpen = true) (hkeyed : store.IsKeyed)
    (hkind : workflow.kind = .workflow) :
    ArePartsOf store none workflow (store.stepsOf workflow.id) where
  apart := areApart_stepsOf hopen hkeyed
  distinct := (hkeyed.pairwise_ofKindWhere .step _).imp Entity.Precedes.id_ne
  kind_ne step hstep := by
    rw [(Store.mem_ofKindWhere.mp hstep).2.1, hkind]
    decide

/-- **An application covers its pages** with what it lends. -/
theorem covers_pages (hkeyed : store.IsKeyed) (hstored : application ∈ store.entities)
    (hkind : application.kind = .application)
    (h : ability.extendForApplication store application = .ok extended) :
    extended.Covers ability store application .page (store.pagesOf application.id) fun action =>
      ability.Lends action application := by
  obtain ⟨done, hreached, h⟩ := bind_eq_ok.mp h
  obtain ⟨settled, hsettled, h⟩ := bind_eq_ok.mp h
  refine (arePartsOf_pagesOf hkeyed hkind).covers (fun page hpage => ?_) hsettled h
  refine ⟨[application], rfl,
    lendersAbove_page (isOpen_of_reached hreached) hkeyed hstored hkind hpage, fun action => ?_⟩
  simp only [List.mem_singleton, exists_eq_left]

theorem failsFor_of_extendForApplication {error : AccessError} (hkeyed : store.IsKeyed)
    (hkind : application.kind = .application)
    (h : ability.extendForApplication store application = .error error) :
    ability.FailsFor store (application :: store.pagesOf application.id) error := by
  rcases bind_eq_error.mp h with h | ⟨done, -, h⟩
  · obtain ⟨fault, hfault, rfl⟩ := mapError_eq_error.mp h
    exact ⟨fault, rfl, .inl hfault⟩
  · obtain ⟨fault, rfl, action, haction, hfault⟩ :=
      (arePartsOf_pagesOf hkeyed hkind).fault (fun _ _ => ⟨_, rfl⟩) h
    refine ⟨fault, rfl, .inr ⟨action, haction, ?_⟩⟩
    rcases hfault with hfault | ⟨page, hpage, hfault | ⟨found, hfound, lender, hlender, hnot, -⟩⟩
    · exact ⟨application, List.mem_cons_self, hfault⟩
    · exact ⟨page, List.mem_cons_of_mem _ hpage, hfault⟩
    · -- an application is not asked
      obtain rfl := Except.ok.inj hfound
      obtain rfl := List.mem_singleton.mp hlender
      exact absurd hkind hnot

/-- **A workflow covers its steps** with what it and what is above it lend. -/
theorem covers_steps (hkeyed : store.IsKeyed) (hstored : workflow ∈ store.entities)
    (hkind : workflow.kind = .workflow)
    (h : ability.extendForWorkflow store workflow = .ok extended) :
    extended.Covers ability store workflow .step (store.stepsOf workflow.id) fun action =>
      ability.LendsToSteps store workflow action := by
  obtain ⟨done, hreached, h⟩ := bind_eq_ok.mp h
  obtain ⟨settled, hsettled, h⟩ := bind_eq_ok.mp h
  have hopen := isOpen_of_reached hreached
  refine (arePartsOf_stepsOf hopen hkeyed hkind).covers (fun step hstep => ?_) hsettled h
  obtain ⟨lenders, hlenders, honly, hall⟩ :=
    exists_lendersAbove_step hopen hkeyed hstored hkind hstep
  refine ⟨lenders, hlenders, hlenders, fun action => ?_⟩
  rw [lendsToSteps_iff hkeyed hkind]
  constructor
  · rintro (hallows | ⟨lender, hlender, hlends⟩)
    · exact .inl hallows
    · rcases honly lender hlender with rfl | hreaches
      · rw [lends_iff_of_kind_ne (by rw [(Store.mem_ofKindWhere.mp hstep).2.1]; decide)] at hlends
        exact .inl hlends
      · exact .inr ⟨lender, hreaches, hlends⟩
  · exact Or.imp_right fun ⟨lender, hreaches, hlends⟩ => ⟨lender, hall lender hreaches, hlends⟩

theorem failsFor_of_extendForWorkflow {error : AccessError} (hkeyed : store.IsKeyed)
    (hstored : workflow ∈ store.entities) (hkind : workflow.kind = .workflow)
    (h : ability.extendForWorkflow store workflow = .error error) :
    ability.FailsFor store
      (workflow :: store.stepsOf workflow.id ++ store.pagesDisplaying workflow.id) error := by
  rcases bind_eq_error.mp h with h | ⟨done, hreached, h⟩
  · obtain ⟨fault, hfault, rfl⟩ := mapError_eq_error.mp h
    exact ⟨fault, rfl, .inl hfault⟩
  · have hopen := isOpen_of_reached hreached
    obtain ⟨fault, rfl, action, haction, hfault⟩ :=
      (arePartsOf_stepsOf hopen hkeyed hkind).fault (fun step hstep =>
        (exists_lendersAbove_step hopen hkeyed hstored hkind hstep).imp fun _ => And.left) h
    refine ⟨fault, rfl, .inr ⟨action, haction, ?_⟩⟩
    simp only [List.cons_append, List.mem_cons, List.mem_append]
    rcases hfault with hfault | ⟨step, hstep, hfault |
      ⟨found, hfound, lender, hlender, hnot, hfault⟩⟩
    · exact ⟨workflow, .inl rfl, hfault⟩
    · exact ⟨step, .inr (.inl hstep), hfault⟩
    · obtain ⟨lenders, hlenders, honly, -⟩ :=
        exists_lendersAbove_step hopen hkeyed hstored hkind hstep
      obtain rfl := Except.ok.inj (hlenders.symm.trans hfound)
      refine ⟨lender, ?_, hfault⟩
      rcases honly lender hlender with rfl | hreaches
      · exact .inr (.inl hstep)
      · exact (eq_or_mem_pagesDisplaying hkeyed hkind hreaches hnot).imp_right .inr

/-- **Extending for the parts of a container is exact.** An ability that is extended for a stored
application allows to read, update or delete one of its pages just when it did before or a role
of the principal is on the list of the application for the action, and a walk from the page
alone gives the same. One that is extended for a stored workflow does so for its steps, to which
the workflow, the pages that display it and their applications lend. Pages or steps may be created
by whoever could create them or may update the container. Every other decision about an object
stays as it was. The extension fails only if the store is not there, or with a fault that the
ability has itself. -/
theorem extendForParts_exact (hkeyed : store.IsKeyed) :
    (∀ application ∈ store.entities, application.kind = .application →
      (∀ error, ability.extendForApplication store application = .error error →
        ability.FailsFor store (application :: store.pagesOf application.id) error) ∧
      ∀ extended, ability.extendForApplication store application = .ok extended →
        extended.Covers ability store application .page (store.pagesOf application.id)
          fun action => ability.Lends action application) ∧
    ∀ workflow ∈ store.entities, workflow.kind = .workflow →
      (∀ error, ability.extendForWorkflow store workflow = .error error →
        ability.FailsFor store
          (workflow :: store.stepsOf workflow.id ++ store.pagesDisplaying workflow.id) error) ∧
      ∀ extended, ability.extendForWorkflow store workflow = .ok extended →
        extended.Covers ability store workflow .step (store.stepsOf workflow.id)
          fun action => ability.LendsToSteps store workflow action := by
  refine ⟨fun application hstored hkind => ⟨fun error h => ?_, fun extended h => ?_⟩,
    fun workflow hstored hkind => ⟨fun error h => ?_, fun extended h => ?_⟩⟩
  · exact failsFor_of_extendForApplication hkeyed hkind h
  · exact covers_pages hkeyed hstored hkind h
  · exact failsFor_of_extendForWorkflow hkeyed hstored hkind h
  · exact covers_steps hkeyed hstored hkind h

/-- Whoever may see an application sees its page and, through it, the step of a workflow. Only
who may update the workflow creates steps. -/
theorem extendForParts_exact_editor :
    let workflow : Entity := .workflow { id := some ⟨1, by decide⟩ }
    let page : Entity :=
      .page { id := some ⟨2, by decide⟩ } (some ⟨4, by decide⟩) { id := workflow.id }
    let step : Entity := .step { id := some ⟨3, by decide⟩ } workflow.id {}
    let application : Entity :=
      .application
        { id := some ⟨4, by decide⟩, grants := [{ type := "canSee", roleId := default }] } .null
    let store : Store := { entities := [workflow, page, step, application] }
    let ability : Ability :=
      { rules := Rule.allow [.update] [.workflow]
        principal := some { userId := default, roles := [{ id := default }] } }
    ∃ paged stepped, ability.extendForApplication store application = .ok paged ∧
      paged.allows .read page = .ok true ∧ paged.possible .create .page = false ∧
      ability.extendForWorkflow store workflow = .ok stepped ∧
      stepped.allows .read step = .ok true ∧ stepped.allows .update step = .ok true ∧
      stepped.possible .create .step = true := by
  intro workflow page step application store ability
  have hkeyed : store.IsKeyed :=
    { identified := by simp [store, workflow, page, step, application, Entity.id]
      distinct := by simp [store, workflow, page, step, application, Entity.id] }
  have hpaged : ability.extendForApplication store application = .ok _ := rfl
  have hstepped : ability.extendForWorkflow store workflow = .ok _ := rfl
  obtain ⟨happlications, hworkflows⟩ := @extendForParts_exact ability store hkeyed
  have hpages := (happlications application (by simp [store]) rfl).2 _ hpaged
  have hsteps := (hworkflows workflow (by simp [store]) rfl).2 _ hstepped
  have hlends : ability.Lends .read application :=
    ⟨_, _, rfl, List.mem_singleton_self _, rfl, List.mem_singleton_self _⟩
  have hupdate : ability.allows .update workflow = .ok true := rfl
  have hpage : page ∈ store.pagesOf application.id :=
    Store.mem_ofKindWhere.mpr ⟨by simp [store], rfl, by decide⟩
  have hdisplays : page ∈ store.pagesDisplaying workflow.id :=
    Store.mem_ofKindWhere.mpr ⟨by simp [store], rfl, by decide⟩
  have hstep : step ∈ store.stepsOf workflow.id :=
    Store.mem_ofKindWhere.mpr ⟨by simp [store], rfl, by decide⟩
  refine ⟨_, _, hpaged, ?_, ?_, hstepped, ?_, ?_, ?_⟩
  · obtain ⟨allowed, hallowed, hiff⟩ := hpages.each page hpage .read (by decide)
    rw [hallowed, hiff.mpr (.inr hlends)]
  · refine Bool.eq_false_iff.mpr fun hpossible => ?_
    -- neither pages nor the application may be written
    rcases hpages.creating.mp hpossible with hbefore | hwrites
    · exact absurd hbefore (by decide)
    · exact absurd hwrites (by decide)
  · obtain ⟨allowed, hallowed, hiff⟩ := hsteps.each step hstep .read (by decide)
    rw [hallowed, hiff.mpr (.inr (.inr ⟨page, hdisplays, .inr
      ⟨application, by simp [store], rfl, by decide, hlends⟩⟩))]
  · obtain ⟨allowed, hallowed, hiff⟩ := hsteps.each step hstep .update (by decide)
    rw [hallowed, hiff.mpr (.inr (.inl hupdate))]
  · exact hsteps.creating.mpr (.inr hupdate)

end Extended

end Ability

end Clearance
