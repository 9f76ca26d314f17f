import Clearance.Proofs.Ability.Extension
import Clearance.Proofs.Store.Upwards

/-!
# What containers lend

What an ability borrows for a content comes from the containers that display it and from what
is above these. This file says what there is to borrow, and what becomes of it:

* what an object lends (`Clearance.Ability.Lends`), which the search for a lender tells
  (`Clearance.Ability.lends_eq_true_iff`);
* what is above a content (`Clearance.Ability.IsAbove`): the walks from its containers visit
  exactly that (`Clearance.Ability.exists_contentWalks`), and references that dangle are no
  obstacle;
* the rules for what has been lent: they decide about one object, and about the actions lent
  (`Clearance.Ability.check_lent`).
-/

namespace Clearance

open Outcome

namespace Ability

variable {ability : Ability} {action : Action} {actions : List Action} {kind : Kind}
  {content entity : Entity}

/-! ### Lenders -/

/-- The list of an application that is consulted for an action: the one for seeing it if
the action is to read, and the one for updating it otherwise. -/
def consulted (action : Action) : PermissionType :=
  if action = .read then .canSee else .canUpdate

/-- An object **lends** an action if it is an application on whose list for the action the
principal has a role, or anything else on which the ability allows the action. -/
def Lends (ability : Ability) (action : Action) (entity : Entity) : Prop :=
  if entity.kind = .application then
    ∃ principal grant, ability.principal = some principal ∧ grant ∈ entity.grants ∧
      grant.type = (consulted action).key ∧ grant.roleId ∈ principal.roleIds
  else ability.allows action entity = .ok true

theorem lendingType?_of_lendable (h : action ∈ Action.lendable) :
    lendingType? action = some (consulted action) := by
  cases action <;> first | rfl | exact absurd h (by decide)

/-- A role listed is one of the principal's. -/
theorem holdsAny_rolesGranting_iff {principal : Principal} {grants : List Grant}
    {type : PermissionType} :
    principal.holdsAny (Listing.rolesGranting grants type) = true ↔
      ∃ grant ∈ grants, grant.type = type.key ∧ grant.roleId ∈ principal.roleIds := by
  simp [Principal.holdsAny, Listing.rolesGranting, Listing.entries]

theorem lends_eq_true_iff (haction : action ∈ Action.lendable) :
    ability.lends action entity = .ok true ↔ ability.Lends action entity := by
  rw [lends, Lends, lendingType?_of_lendable haction]
  by_cases hkind : entity.kind = .application
  · cases hprincipal : ability.principal with
    | none => simp [hkind]
    | some principal => simp [hkind, holdsAny_rolesGranting_iff]
  · simp [hkind]

/-- Applications never have a fault when they lend. -/
theorem allows_of_lends_eq_error {fault : Fault} (h : ability.lends action entity = .error fault) :
    entity.kind ≠ .application ∧ ability.allows action entity = .error fault := by
  rw [lends] at h
  by_cases hkind : entity.kind = .application
  · simp [hkind] at h
  · exact ⟨hkind, by simpa [hkind] using h⟩

/-! ### The rules for what has been lent -/

theorem meets_ruleForOne {id : Uuid} (hid : content.id = some id) (other : Entity) :
    (ruleForOne content action).meets other = .ok (decide (other.id = content.id)) := by
  rw [hid, Rule.meets, ruleForOne]
  simp only [Condition.check, Entity.cell_id, hid, Operand.ofId]
  cases other.id with
  | none => rfl
  | some key => simp [Cell.ofId, Cell.equals, beq_eq_decide]

/-- **The rules for what was lent** to one object allow just that: they decide about no
other object and about no other action. -/
theorem check_lent {id : Uuid} (hid : content.id = some id)
    (hactions : ∀ action ∈ actions, action ≠ .manage) :
    (ability.extend (actions.map (ruleForOne content))).check action kind entity =
      if action ∈ actions ∧ kind = content.kind ∧ entity.id = content.id then .ok true
      else ability.check action kind entity := by
  have hrule : ∀ rule ∈ (actions.map (ruleForOne content)).filter (Rule.isAbout action kind),
      rule = ruleForOne content action ∧ action ∈ actions ∧ kind = content.kind := by
    intro rule hrule
    obtain ⟨hmem, habout⟩ := List.mem_filter.mp hrule
    obtain ⟨lent, hlent, rfl⟩ := List.mem_map.mp hmem
    obtain ⟨hkind, rfl⟩ : content.kind = kind ∧ lent = action := by
      simpa [Rule.isAbout, Rule.appliesTo, ruleForOne, hactions lent hlent] using habout
    exact ⟨rfl, hlent, hkind.symm⟩
  rw [check_extend]
  by_cases h : action ∈ actions ∧ kind = content.kind ∧ entity.id = content.id
  · rw [if_pos h]
    obtain ⟨haction, rfl, hsame⟩ := h
    -- the first rule asked is there and decides
    have hmem : ruleForOne content action ∈
        ((actions.map (ruleForOne content)).filter (Rule.isAbout action content.kind)).reverse := by
      rw [List.mem_reverse, List.mem_filter]
      exact ⟨List.mem_map_of_mem haction, by simp [Rule.isAbout, Rule.appliesTo, ruleForOne]⟩
    cases hrules :
        ((actions.map (ruleForOne content)).filter (Rule.isAbout action content.kind)).reverse with
    | nil =>
      rw [hrules] at hmem
      exact absurd hmem List.not_mem_nil
    | cons first rest =>
      have hfirst : first = ruleForOne content action := by
        refine (hrule first (List.mem_reverse.mp ?_)).1
        rw [hrules]
        exact List.mem_cons_self
      rw [hfirst, Rule.firstDeciding_cons, meets_ruleForOne hid, hsame]
      simp [ruleForOne]
  · rw [if_neg h]
    -- the rules about the action, if there are any, are about another object
    have hnone : ∀ rule ∈
        ((actions.map (ruleForOne content)).filter (Rule.isAbout action kind)).reverse,
        rule.meets entity = .ok false := by
      intro rule hmem
      obtain ⟨rfl, haction, hkind⟩ := hrule rule (List.mem_reverse.mp hmem)
      rw [meets_ruleForOne hid, decide_eq_false fun hsame => h ⟨haction, hkind, hsame⟩]
    rw [Rule.firstDeciding_eq_none_iff.mpr hnone]

/-! ### What is above a content -/

variable {store : Store}

/-- Something **above a content**: what is reached upwards from a page or a step that
displays it. -/
def IsAbove (store : Store) (content entity : Entity) : Prop :=
  ∃ container ∈ store.entities, Store.displays content.id container = true ∧
    store.Reaches container entity

theorem isContaining_of_displays {id : Option Uuid} (h : Store.displays id entity = true) :
    entity.kind = .page ∨ entity.kind = .step := by
  cases entity <;> first | exact .inl rfl | exact .inr rfl | simp [Store.displays] at h

theorem mem_containersOf {id : Option Uuid} :
    entity ∈ store.containersOf id ↔ entity ∈ store.entities ∧ Store.displays id entity = true := by
  rw [Store.containersOf, List.mem_append, Store.pagesDisplaying, Store.stepsDisplaying,
    Store.mem_ofKindWhere, Store.mem_ofKindWhere]
  constructor
  · rintro (⟨hmem, -, hdisplays⟩ | ⟨hmem, -, hdisplays⟩) <;> exact ⟨hmem, hdisplays⟩
  · rintro ⟨hmem, hdisplays⟩
    rcases isContaining_of_displays hdisplays with hkind | hkind
    · exact .inl ⟨hmem, hkind, hdisplays⟩
    · exact .inr ⟨hmem, hkind, hdisplays⟩

/-- **The walks from the containers of a content** visit exactly what is above it. -/
theorem exists_contentWalks (hopen : store.isOpen = true) (hkeyed : store.IsKeyed)
    (content : Entity) :
    ∃ walks, contentWalks store content none = .ok walks ∧
      ∀ entity, (∃ chain ∈ walks.map Store.Walk.visited, entity ∈ chain) ↔
        IsAbove store content entity := by
  have hwalk : ∀ container ∈ store.containersOf content.id,
      ∃ walk, store.walk container = .ok walk ∧
        ∀ entity, entity ∈ walk.visited ↔ store.Reaches container entity := by
    intro container hcontainer
    obtain ⟨hmem, hdisplays⟩ := mem_containersOf.mp hcontainer
    refine Store.exists_walk hopen hkeyed hmem ?_
    exact (isContaining_of_displays hdisplays).elim (fun h => .inr (.inr (.inl h))) .inl
  have hreached : store.reached.mapError AccessError.fault = .ok () := by
    simp [Store.reached, hopen]
  cases hwalks : (store.containersOf content.id).mapM store.walk with
  | error error =>
    -- no walk fails, so they do not fail together
    obtain ⟨container, hcontainer, herror⟩ := mapM_eq_error hwalks
    obtain ⟨walk, hok, -⟩ := hwalk container hcontainer
    rw [hok] at herror
    exact absurd herror (by simp)
  | ok walks =>
    refine ⟨walks, by rw [contentWalks, hreached]; exact hwalks, fun entity => ?_⟩
    constructor
    · rintro ⟨chain, hchain, hentity⟩
      obtain ⟨walk, hmem, rfl⟩ := List.mem_map.mp hchain
      obtain ⟨container, hcontainer, hok⟩ := ((mapM_eq_ok hwalks).2 walk).mp hmem
      obtain ⟨other, hother, hvisited⟩ := hwalk container hcontainer
      -- a container has only one walk
      obtain rfl : other = walk := Except.ok.inj (hother.symm.trans hok)
      obtain ⟨hstored, hdisplays⟩ := mem_containersOf.mp hcontainer
      exact ⟨container, hstored, hdisplays, (hvisited entity).mp hentity⟩
    · rintro ⟨container, hstored, hdisplays, hreach⟩
      have hcontainer := mem_containersOf.mpr ⟨hstored, hdisplays⟩
      obtain ⟨walk, hok, hvisited⟩ := hwalk container hcontainer
      refine ⟨walk.visited, List.mem_map_of_mem ?_, (hvisited entity).mpr hreach⟩
      exact ((mapM_eq_ok hwalks).2 walk).mpr ⟨container, hcontainer, hok⟩

end Ability

end Clearance
