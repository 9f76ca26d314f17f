import Clearance.Proofs.Ability.Openness
import Clearance.Proofs.Identifier.Text

/-!
# Areas

The rules of the base ability come in areas. This file tells what the rules about seven of the
nine kinds with role lists amount to; the base ability does not consult the lists of dashboards
and workflows, which are reached through what displays them. An area has a flag for everything,
and may have one for reading and one for creating. Without a flag that covers the action the
list of the object decides that belongs to the action, where an empty list admits everybody;
besides, an application in use may be read by those with a role of it
(`Clearance.Area.Grants`).

The rules of an area overlap: a flag replaces some of them and leaves others in place. That
this makes no difference is `Clearance.Ability.base_allows_by_area`. The list is consulted
twice over, as a function of the object and as the condition of a rule, and both say the same
(`Clearance.Listing.check_permissionCondition`).
-/

namespace Clearance

open Rule

/-! ### Areas -/

/-- An **area** of the base ability: the global flags that open the kinds in it. -/
structure Area where
  /-- The flag for reading, if there is one. -/
  see : Option GlobalFlag
  /-- The flag for creating, if there is one. -/
  create : Option GlobalFlag
  /-- The flag for everything. -/
  manage : GlobalFlag
  /-- Whether everything includes the wildcard. -/
  wildcard : Bool

/-- The area that a kind belongs to if the base ability consults the lists of its objects. -/
def Kind.area? : Kind → Option Area
  | .application =>
    some ⟨some .seeApplications, some .createApplications, .manageApplications, true⟩
  | .page | .step => some ⟨some .seeApplications, none, .manageApplications, true⟩
  | .form => some ⟨some .seeForms, some .createForms, .manageForms, false⟩
  | .resource => some ⟨some .seeResources, some .createResources, .manageResources, false⟩
  | .apiConfiguration | .referenceData => some ⟨none, none, .manageApiConfigurations, false⟩
  | _ => none

/-- The flags of an area that **cover** an action. -/
def Area.covering (area : Area) : Action → List GlobalFlag
  | .read => area.manage :: area.see.toList
  | .create => area.manage :: area.create.toList
  | .update | .delete => [area.manage]
  | .manage => if area.wildcard then [area.manage] else []

/-- The list of an object that decides about an action, if one does. -/
def Action.list? : Action → Option PermissionType
  | .read => some .canSee
  | .update => some .canUpdate
  | .delete => some .canDelete
  | .create | .manage => none

/-- A principal **works with** an application that is in use if one of the principal's roles
belongs to it. -/
def Principal.WorksWith (principal : Principal) (entity : Entity) : Prop :=
  ∃ listed id, entity = .application listed (.text activeStatus) ∧ listed.id = some id ∧
    id ∈ principal.applicationIds

/-- An area **grants** an action on an object to a principal: by a flag, by the list of the
object, or because it is an application the principal works with. -/
def Area.Grants (area : Area) (principal : Principal) (action : Action) (entity : Entity) :
    Prop :=
  (∃ flag ∈ area.covering action, principal.holds flag = true) ∨
  (∃ type, action.list? = some type ∧ Listing.admits entity.grants type principal = true) ∨
  (action = .read ∧ principal.WorksWith entity)

variable {principal : Principal} {entity : Entity} {action : Action} {kind : Kind}
  {kinds : List Kind}

/-! ### Conditions -/

/-- **The list test exists twice**: the condition that a list admits a principal asks the entries
as the list does. -/
theorem Listing.check_permissionCondition {type : PermissionType} :
    (permissionCondition type principal).check entity =
      .ok (admits entity.grants type principal) := by
  rw [permissionCondition, Condition.check, Condition.listGrants, admits, rolesGranting, entries]
  simp [Principal.holdsAny, List.any_map, Function.comp_def]

/-- A conjunction holds when every part does, so no part meets a fault then. -/
theorem Condition.check_allOf_eq_true_iff {parts : List Condition} :
    (allOf parts).check entity = .ok true ↔ ∀ part ∈ parts, part.check entity = .ok true := by
  rw [check]
  induction parts with
  | nil => simp [checkAll]
  | cons part rest ih =>
    rw [checkAll, List.forall_mem_cons, ← ih]
    rcases part.check entity with fault | _ | _ <;> simp

namespace BaseRules

/-- The condition on applications in use: only applications have a status. -/
theorem check_ownActive :
    (ownActive principal).check entity = .ok true ↔ principal.WorksWith entity := by
  have hid : (Condition.fieldIn "id" (principal.applicationIds.map .id)).check entity = .ok true ↔
      ∃ id, entity.id = some id ∧ id ∈ principal.applicationIds := by
    have hcell : entity.cell "id" = Cell.ofId entity.id := by cases entity <;> rfl
    rw [check_fieldIn (.inl rfl), hcell]
    cases entity.id <;> simp [Cell.ofId, Cell.equals]
  have hstatus : (Condition.fieldEquals "status" (.value (.text activeStatus))).check entity =
      .ok true ↔ ∃ listed, entity = .application listed (.text activeStatus) := by
    rw [Condition.check, Except.ok.injEq]
    cases entity with
    | application listed status =>
      have hcell : (Entity.application listed status).cell "status" = .content .text status := rfl
      rw [hcell]
      cases status <;> simp [Cell.equals, Value.same, Value.sameAtom]
    | _ =>
      -- other objects have no such attribute, and nothing holds no operand
      change false = true ↔ _
      simp
  rw [ownActive, Condition.check_allOf_eq_true_iff, Principal.WorksWith]
  simp only [List.forall_mem_cons, List.not_mem_nil, false_implies, implies_true, and_true, hid,
    hstatus]
  constructor
  · rintro ⟨⟨id, hid, hmem⟩, listed, rfl⟩
    exact ⟨listed, id, rfl, hid, hmem⟩
  · rintro ⟨listed, id, rfl, hid, hmem⟩
    exact ⟨⟨id, hid, hmem⟩, listed, rfl⟩

/-! ### Rules -/

theorem permit_byLists : Permit (byLists principal kinds) action kind entity ↔
    kind ∈ kinds ∧ ∃ type, action.list? = some type ∧
      Listing.admits entity.grants type principal = true := by
  simp only [byLists, permit_append, permit_allow, listed, Option.mem_def, Option.some.injEq,
    forall_eq', Listing.check_permissionCondition, Except.ok.injEq]
  cases action <;> simp [Action.list?]

/-- Only applications are worked with. -/
theorem not_worksWith (h : entity.kind ≠ .application) : ¬ principal.WorksWith entity := by
  rintro ⟨listed, id, rfl, -⟩
  exact h rfl

/-- The rules about applications, their pages and their steps. -/
theorem permit_applications {area : Area} (harea : entity.kind.area? = some area)
    (hmanage : area.manage = .manageApplications) :
    Permit (applications principal) action entity.kind entity ↔
      area.Grants principal action entity := by
  simp only [applications, permit_append, permit_ite, permit_allow, permit_nil, permit_byLists,
    listed, Option.mem_def, Option.some.injEq, forall_eq', reduceCtorEq, false_implies,
    implies_true, Listing.check_permissionCondition, Except.ok.injEq, check_ownActive,
    Area.Grants]
  cases hkind : entity.kind <;> rw [hkind] at harea <;> cases harea <;> cases hmanage
  case application =>
    cases action <;> simp [Action.list?, Action.proper, Area.covering, applicationTree] <;> grind
  -- a page or a step is not worked with
  all_goals
    have hworks : ¬ principal.WorksWith entity := not_worksWith (by simp [hkind])
    cases action <;>
      simp [Action.list?, Action.proper, Area.covering, applicationTree, hworks] <;> grind

/-- The rules about a kind whose records are stored with it. -/
theorem permit_withRecords {see create manage : GlobalFlag} (hkind : entity.kind = kind)
    (hother : kind ≠ .record ∧ kind ≠ .application) :
    Permit (withRecords principal kind see create manage) action kind entity ↔
      Area.Grants ⟨some see, some create, manage, false⟩ principal action entity := by
  have hworks : ¬ principal.WorksWith entity := not_worksWith (hkind ▸ hother.2)
  simp only [withRecords, permit_append, permit_ite, permit_allow, permit_nil, listed,
    Option.mem_def, Option.some.injEq, forall_eq', reduceCtorEq, false_implies, implies_true,
    Listing.check_permissionCondition, Except.ok.injEq, Area.Grants, Area.covering]
  cases action <;> simp [Action.list?, Action.proper, hother, hworks] <;> grind

/-- The rules about interfaces to other systems. -/
theorem permit_apiConfigurations {area : Area} (harea : entity.kind.area? = some area)
    (hmanage : area.manage = .manageApiConfigurations) :
    Permit (apiConfigurations principal) action entity.kind entity ↔
      area.Grants principal action entity := by
  simp only [apiConfigurations, permit_ite, permit_allow, permit_byLists, Option.mem_def,
    reduceCtorEq, false_implies, implies_true, Area.Grants]
  cases hkind : entity.kind <;> rw [hkind] at harea <;> cases harea <;> cases hmanage
  all_goals
    have hworks : ¬ principal.WorksWith entity := not_worksWith (by simp [hkind])
    cases action <;> simp [Action.list?, Action.proper, Area.covering, hworks] <;> grind

theorem not_permit_withRecords {other : Kind} {see create manage : GlobalFlag}
    (h : kind ≠ other ∧ kind ≠ .record) :
    ¬ Permit (withRecords principal other see create manage) action kind entity := by
  simp [withRecords, h]

/-- **The rules about an area** stand together: those of every other area, and those about
roles, users, notifications and settings, are about other kinds. -/
theorem permit_all {area : Area} (harea : entity.kind.area? = some area) :
    Permit (all principal) action entity.kind entity ↔
      area.Grants principal action entity := by
  simp only [all, permit_append]
  cases hkind : entity.kind <;> rw [hkind] at harea <;> cases harea
  case application | page | step =>
    rw [← permit_applications (by rw [hkind]; rfl) rfl, hkind]
    simp [forms, resources, not_permit_withRecords, roles, users, notifications,
      apiConfigurations, permit_byLists, settings]
  case form | resource =>
    rw [← permit_withRecords hkind (by decide)]
    simp [applications, applicationTree, permit_byLists, forms, resources,
      not_permit_withRecords, roles, users, notifications, apiConfigurations, settings]
  case apiConfiguration | referenceData =>
    rw [← permit_apiConfigurations (by rw [hkind]; rfl) rfl, hkind]
    simp [applications, applicationTree, permit_byLists, forms, resources,
      not_permit_withRecords, roles, users, notifications, settings]

end BaseRules

/-! ### Decisions -/

namespace Ability

/-- **What decides about an area**: to read, update or delete an object takes a flag that covers
the action, a place on the list of the object for it (which everybody has while the list is
empty), or, to read it, that it is an application the principal works with. To create one takes
a flag, and so does `manage`, which only the flag for applications covers. About every object
of the seven kinds, whatever its lists, there is an answer. -/
theorem base_allows_by_area {area : Area} (harea : entity.kind.area? = some area) :
    ∃ answer, (base principal).allows action entity = .ok answer ∧
      (answer = true ↔ area.Grants principal action entity) := by
  obtain ⟨answer, hanswer, hpermit⟩ :
      ∃ answer, (base principal).check action entity.kind entity = .ok answer ∧
        (answer = true ↔ Permit (BaseRules.all principal) action entity.kind entity) := check_base
  exact ⟨answer, hanswer, hpermit.trans (BaseRules.permit_all harea)⟩

/-- An application in use is read by those with a role of it, though its list names others; it
is not updated by them, and deleted by anybody, since nobody is listed for that. -/
theorem base_allows_by_area_ownApplication :
    let principal : Principal := { userId := 1, roles := [{ id := 2, applicationId := some 3 }] }
    let application : Entity :=
      .application
        { id := some 3
          grants := [{ type := "canSee", roleId := 4 }, { type := "canUpdate", roleId := 4 }] }
        (.text "active")
    application.kind.area?.isSome = true ∧
      (base principal).allows .read application = .ok true ∧
      (base principal).allows .update application = .ok false ∧
      (base principal).allows .delete application = .ok true := by
  intro principal application
  have hdecides : ∀ {action answer}, (answer = true ↔
      Area.Grants ⟨some .seeApplications, some .createApplications, .manageApplications, true⟩
        principal action application) →
      (base principal).allows action application = .ok answer := by
    intro action answer hanswer
    obtain ⟨other, hother, hiff⟩ :
        ∃ other, (base principal).allows action application = .ok other ∧
          (other = true ↔ Area.Grants _ principal action application) := base_allows_by_area rfl
    rw [hother, Bool.eq_iff_iff.mpr (hiff.trans hanswer.symm)]
  refine ⟨rfl, hdecides (iff_of_true rfl ?_), hdecides (iff_of_false (by simp) ?_),
    hdecides (iff_of_true rfl ?_)⟩
  · exact .inr (.inr ⟨rfl, _, 3, rfl, rfl, List.mem_singleton_self _⟩)
  · rintro (⟨flag, hflag, hholds⟩ | ⟨type, htype, hadmits⟩ | ⟨hread, -⟩)
    · obtain rfl := List.mem_singleton.mp hflag
      exact absurd hholds (by decide)
    · obtain rfl := Option.some.inj htype
      exact absurd hadmits (by decide)
    · cases hread
  · exact .inr (.inl ⟨.canDelete, rfl, by decide⟩)

end Ability

end Clearance
