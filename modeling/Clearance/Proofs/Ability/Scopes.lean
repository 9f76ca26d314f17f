import Clearance.Proofs.Ability.Areas
import Clearance.Proofs.Ability.Lending

/-!
# Flags that stay inside their application

A role carries flags in two scopes, and two keys occur in both. The flags of the application
scope count within the application of the role only. Two principals *agree outside* an
application if they differ in nothing but what their roles carry for it
(`Clearance.Principal.AgreesOutside`), and then no ability of theirs differs outside the
application either (`Clearance.Ability.base_stays_inside`).

The base ability looks at flags of the application scope in one place, where it opens the roles
and channels of an application. All other rules are made from what the roles carry everywhere:
they are the same for a principal whose roles have lost their application flags
(`Clearance.Principal.unscoped`).

What remains to be said is that no key of the application scope stands in for the global one.
Without the global flag, roles are managed within the applications that carry the scoped flag,
and users and settings are read only.
-/

namespace Clearance

open Rule

/-- The wildcard is not proper, -/
theorem Action.manage_not_mem_proper : manage ∉ proper := by decide

/-- and to read is. -/
theorem Action.read_mem_proper : read ∈ proper := by decide

/-! ### Principals -/

/-- A role that **agrees** with another **outside** an application: what they carry for an
application is the same, unless it is this one. A role without an application carries nothing
for any. -/
structure RoleGrant.AgreesOutside (applicationId : Uuid) (role other : RoleGrant) : Prop where
  /-- They are the same role. -/
  id : role.id = other.id
  /-- They belong to the same application. -/
  application : role.applicationId = other.applicationId
  /-- They carry the same flags everywhere. -/
  globalFlags : role.globalFlags = other.globalFlags
  /-- They carry the same flags within another application. -/
  applicationFlags : ∀ id, role.applicationId = some id → id ≠ applicationId →
    role.applicationFlags = other.applicationFlags
  /-- They subscribe to the same channels. -/
  channelIds : role.channelIds = other.channelIds

/-- A principal that **agrees** with another **outside** an application: they differ in nothing
but what their roles carry for it. -/
structure Principal.AgreesOutside (applicationId : Uuid) (principal other : Principal) : Prop where
  /-- They are the same user. -/
  userId : principal.userId = other.userId
  /-- Their roles agree one by one. -/
  roles : List.Forall₂ (RoleGrant.AgreesOutside applicationId) principal.roles other.roles
  /-- They have the same groups. -/
  groupIds : principal.groupIds = other.groupIds
  /-- They have the same attributes. -/
  attributes : principal.attributes = other.attributes

/-- A role without the flags it carries for its application. -/
def RoleGrant.unscoped (role : RoleGrant) : RoleGrant :=
  { role with applicationFlags := [] }

namespace Principal

variable {applicationId id : Uuid} {principal other : Principal} {key : String}

/-- A principal whose roles carry nothing for their applications. -/
def unscoped (principal : Principal) : Principal :=
  { principal with roles := principal.roles.map RoleGrant.unscoped }

@[simp] theorem userId_unscoped : principal.unscoped.userId = principal.userId := rfl

@[simp] theorem roleIds_unscoped : principal.unscoped.roleIds = principal.roleIds := by
  simp [roleIds, unscoped, RoleGrant.unscoped, Function.comp_def]

@[simp] theorem applicationIds_unscoped :
    principal.unscoped.applicationIds = principal.applicationIds := by
  simp [applicationIds, unscoped, RoleGrant.unscoped, List.filterMap_map, Function.comp_def]

@[simp] theorem channelIds_unscoped : principal.unscoped.channelIds = principal.channelIds := by
  simp [channelIds, unscoped, RoleGrant.unscoped, List.flatMap_map]

@[simp] theorem holds_unscoped {flag : GlobalFlag} :
    principal.unscoped.holds flag = principal.holds flag := by
  rw [holds, holds, hasGlobal, hasGlobal, unscoped, List.any_map]
  rfl

namespace AgreesOutside

/-- Principals that agree outside an application do so without any application flags. -/
theorem unscoped_eq (h : principal.AgreesOutside applicationId other) :
    principal.unscoped = other.unscoped := by
  have hroles : ∀ {roles others : List RoleGrant},
      List.Forall₂ (RoleGrant.AgreesOutside applicationId) roles others →
        roles.map RoleGrant.unscoped = others.map RoleGrant.unscoped := by
    intro roles others hroles
    induction hroles with
    | nil => rfl
    | cons hrole _ ih =>
      rw [List.map_cons, List.map_cons, ih, RoleGrant.unscoped, RoleGrant.unscoped, hrole.id,
        hrole.application, hrole.globalFlags, hrole.channelIds]
  rw [unscoped, unscoped, hroles h.roles, h.userId, h.groupIds, h.attributes]

theorem roleIds_eq (h : principal.AgreesOutside applicationId other) :
    principal.roleIds = other.roleIds := by
  rw [← roleIds_unscoped, h.unscoped_eq, roleIds_unscoped]

theorem holds_eq (h : principal.AgreesOutside applicationId other) (flag : GlobalFlag) :
    principal.holds flag = other.holds flag := by
  rw [← holds_unscoped, h.unscoped_eq, holds_unscoped]

/-- **They carry the same flags for every other application.** -/
theorem mem_applicationsWith (h : principal.AgreesOutside applicationId other)
    (hne : id ≠ applicationId) :
    id ∈ principal.applicationsWith key ↔ id ∈ other.applicationsWith key := by
  have hroles : ∀ {roles others : List RoleGrant},
      List.Forall₂ (RoleGrant.AgreesOutside applicationId) roles others →
        ((∃ role ∈ roles, role.applicationFlags.contains key ∧ role.applicationId = some id) ↔
          ∃ role ∈ others, role.applicationFlags.contains key ∧ role.applicationId = some id) := by
    intro roles others hroles
    induction hroles with
    | nil => simp
    | cons hrole _ ih =>
      simp only [List.mem_cons, exists_eq_or_imp, ih, ← hrole.application]
      refine or_congr_left (and_congr_left fun happlication => ?_)
      rw [hrole.applicationFlags id happlication hne]
  have hmem : ∀ principal : Principal, id ∈ principal.applicationsWith key ↔
      ∃ role ∈ principal.roles,
        role.applicationFlags.contains key ∧ role.applicationId = some id := by
    intro principal
    simp [applicationsWith, List.mem_filterMap]
  rw [hmem, hmem]
  exact hroles h.roles

end AgreesOutside

end Principal

/-- The application that a role or a channel **belongs to**. -/
def Entity.owner? : Entity → Option Uuid
  | .role r => r.applicationId
  | .channel c => c.applicationId
  | _ => none

/-! ### Rules -/

namespace BaseRules

variable {applicationId : Uuid} {principal other : Principal} {entity : Entity} {action : Action}
  {kind : Kind}

/-- The rules before those about roles and channels do not look at application flags, -/
theorem areas_unscoped :
    applications principal.unscoped = applications principal ∧
      forms principal.unscoped = forms principal ∧
      resources principal.unscoped = resources principal := by
  simp [applications, forms, resources, withRecords, byLists, listed, ownActive,
    Listing.permissionCondition]

/-- nor do those after them. -/
theorem others_unscoped :
    users principal.unscoped = users principal ∧
      notifications principal.unscoped = notifications principal ∧
      apiConfigurations principal.unscoped = apiConfigurations principal ∧
      settings principal.unscoped = settings principal := by
  simp [users, notifications, apiConfigurations, settings, byLists, listed, unseen,
    Listing.permissionCondition]

/-- **The rules about roles and channels**: to use them in the four proper ways takes the global
flag, or the scoped one for the application that they belong to; besides, own roles are read. -/
theorem permit_roles : Permit (roles principal) action entity.kind entity ↔
    ((entity.kind = .role ∨ entity.kind = .channel) ∧ action ∈ Action.proper ∧
      (principal.holds .seeRoles = true ∨ ∃ id, entity.owner? = some id ∧
        id ∈ principal.applicationsWith ApplicationFlag.seeRoles.key)) ∨
    (entity.kind = .role ∧ action = .read ∧
      ∃ id, entity.id = some id ∧ id ∈ principal.roleIds) := by
  have hown : (Condition.fieldIn "id" (principal.roleIds.map .id)).check entity = .ok true ↔
      ∃ id, entity.id = some id ∧ id ∈ principal.roleIds := by
    rw [check_fieldIn (.inl rfl), Entity.cell_id]
    cases entity.id <;> simp [Cell.ofId, Cell.equals]
  have hscoped : (entity.kind = .role ∨ entity.kind = .channel) →
      ((Condition.fieldIn "application_id"
        ((principal.applicationsWith ApplicationFlag.seeRoles.key).map .id)).check entity =
          .ok true ↔ ∃ id, entity.owner? = some id ∧
            id ∈ principal.applicationsWith ApplicationFlag.seeRoles.key) := by
    intro hkind
    have hcell : entity.cell "application_id" = Cell.ofId entity.owner? := by
      cases entity <;> first | rfl | simp [Entity.kind] at hkind
    rw [check_fieldIn (.inr (.inl rfl)), hcell]
    cases entity.owner? <;> simp [Cell.ofId, Cell.equals]
  simp only [roles, permit_ite, permit_append, permit_allow, Option.mem_def, Option.some.injEq,
    forall_eq', reduceCtorEq, false_implies, implies_true, hown, List.mem_cons, List.not_mem_nil,
    or_false, false_or, and_true, Action.manage_not_mem_proper]
  -- the global flag replaces the rule about own roles, which it covers
  by_cases hkind : entity.kind = .role ∨ entity.kind = .channel
  · rw [hscoped hkind]
    grind [Action.read_mem_proper]
  · grind

/-- Of the rules before and after, those about applications and users may be about roles,
channels and users as well. -/
theorem permit_all_of_person (hkind : kind = .role ∨ kind = .channel ∨ kind = .user) :
    Permit (all principal) action kind entity ↔
      Permit (applications principal) action kind entity ∨
      Permit (roles principal) action kind entity ∨
      Permit (users principal) action kind entity := by
  rcases hkind with rfl | rfl | rfl <;>
    simp [all, forms, resources, not_permit_withRecords, notifications, apiConfigurations,
      permit_byLists, settings]

end BaseRules

/-! ### What rules are about -/

namespace Rule

variable {rules others : List Rule} {actions : List Action} {kinds : List Kind}
  {condition : Option Condition} {action : Action} {kind : Kind}

/-- Rules **concern** an action on a kind if one of them is about it. -/
def Concern (rules : List Rule) (action : Action) (kind : Kind) : Prop :=
  ∃ rule ∈ rules, rule.isAbout action kind = true

@[simp] theorem concern_nil : ¬ Concern [] action kind := by
  simp [Concern]

@[simp] theorem concern_append :
    Concern (rules ++ others) action kind ↔
      Concern rules action kind ∨ Concern others action kind := by
  simp only [Concern, List.mem_append, or_and_right, exists_or]

@[simp] theorem concern_ite {P : Prop} [Decidable P] :
    Concern (if P then rules else others) action kind ↔
      P ∧ Concern rules action kind ∨ ¬ P ∧ Concern others action kind := by
  by_cases h : P <;> simp [h]

@[simp] theorem concern_allow : Concern (allow actions kinds condition) action kind ↔
    kind ∈ kinds ∧ (.manage ∈ actions ∨ action ∈ actions) := by
  constructor
  · rintro ⟨rule, hrule, habout⟩
    obtain ⟨haction, hkind, -⟩ := mem_each.mp hrule
    obtain ⟨rfl, hmanage | rfl⟩ := isAbout_iff.mp habout
    · exact ⟨hkind, .inl (hmanage ▸ haction)⟩
    · exact ⟨hkind, .inr haction⟩
  · rintro ⟨hkind, haction | haction⟩
    · exact ⟨{ action := .manage, kind, condition }, mem_each.mpr ⟨haction, hkind, rfl, rfl⟩,
        isAbout_iff.mpr ⟨rfl, .inl rfl⟩⟩
    · exact ⟨{ action, kind, condition }, mem_each.mpr ⟨haction, hkind, rfl, rfl⟩,
        isAbout_iff.mpr ⟨rfl, .inr rfl⟩⟩

end Rule

/-- The rules about roles concern the same for everybody. -/
theorem BaseRules.concern_roles {principal : Principal} {action : Action} {kind : Kind} :
    Concern (roles principal) action kind ↔
      (kind = .role ∨ kind = .channel) ∧ action ∈ Action.proper := by
  simp only [roles, concern_ite, concern_append, concern_allow, List.mem_cons,
    List.not_mem_nil, or_false, false_or, reduceCtorEq, Action.manage_not_mem_proper]
  grind [Action.read_mem_proper]

namespace Ability

variable {applicationId id : Uuid} {principal other : Principal} {entity : Entity}
  {action : Action} {kind : Kind}

/-- What is possible for the base ability is what its rules concern. -/
theorem possible_base_iff : (base principal).possible action kind = true ↔
    Concern (BaseRules.all principal) action kind :=
  possible_of_isOpen BaseRules.isOpen_all

/-- **All rules but those about roles and channels are the same** for principals that agree
outside an application. -/
theorem exists_all_eq (h : principal.AgreesOutside applicationId other) :
    ∃ front back, BaseRules.all principal = front ++ BaseRules.roles principal ++ back ∧
      BaseRules.all other = front ++ BaseRules.roles other ++ back := by
  have hall : ∀ principal : Principal, BaseRules.all principal =
      (BaseRules.applications principal.unscoped ++ BaseRules.forms principal.unscoped ++
        BaseRules.resources principal.unscoped) ++ BaseRules.roles principal ++
      (BaseRules.users principal.unscoped ++ BaseRules.notifications principal.unscoped ++
        BaseRules.apiConfigurations principal.unscoped ++
        BaseRules.settings principal.unscoped) := by
    intro principal
    obtain ⟨happlications, hforms, hresources⟩ := @BaseRules.areas_unscoped principal
    obtain ⟨husers, hnotifications, hconfigurations, hsettings⟩ :=
      @BaseRules.others_unscoped principal
    rw [happlications, hforms, hresources, husers, hnotifications, hconfigurations, hsettings]
    simp [BaseRules.all]
  refine ⟨_, _, hall principal, ?_⟩
  rw [hall other, h.unscoped_eq]

/-- **No decision differs outside the application.** -/
theorem allows_base_eq (h : principal.AgreesOutside applicationId other)
    (houtside : entity.owner? ≠ some applicationId) :
    (base principal).allows action entity = (base other).allows action entity := by
  have hscoped : (∃ id, entity.owner? = some id ∧
        id ∈ principal.applicationsWith ApplicationFlag.seeRoles.key) ↔
      ∃ id, entity.owner? = some id ∧
        id ∈ other.applicationsWith ApplicationFlag.seeRoles.key := by
    refine exists_congr fun id => and_congr_right fun howner => h.mem_applicationsWith ?_
    rintro rfl
    exact houtside howner
  have hroles : Permit (BaseRules.roles principal) action entity.kind entity ↔
      Permit (BaseRules.roles other) action entity.kind entity := by
    rw [BaseRules.permit_roles, BaseRules.permit_roles, hscoped, h.holds_eq, h.roleIds_eq]
  obtain ⟨front, back, hall, hallOther⟩ := exists_all_eq h
  obtain ⟨answer, hanswer, hpermit⟩ :
      ∃ answer, (base principal).check action entity.kind entity = .ok answer ∧
        (answer = true ↔ Permit (BaseRules.all principal) action entity.kind entity) := check_base
  obtain ⟨answerOther, hanswerOther, hpermitOther⟩ :
      ∃ answer, (base other).check action entity.kind entity = .ok answer ∧
        (answer = true ↔ Permit (BaseRules.all other) action entity.kind entity) := check_base
  rw [hall, permit_append, permit_append, hroles] at hpermit
  rw [hallOther, permit_append, permit_append] at hpermitOther
  rw [allows, allows, hanswer, hanswerOther, Bool.eq_iff_iff.mpr (hpermit.trans hpermitOther.symm)]

/-- Nor does what is possible. -/
theorem possible_base_eq (h : principal.AgreesOutside applicationId other) :
    (base principal).possible action kind = (base other).possible action kind := by
  obtain ⟨front, back, hall, hallOther⟩ := exists_all_eq h
  rw [Bool.eq_iff_iff, possible_base_iff, possible_base_iff, hall, hallOther]
  simp only [concern_append, BaseRules.concern_roles]

/-! ### Features -/

/-- The features of an application are about kinds of their own. -/
theorem kind_of_mem_featureRules {rule : Rule} (h : rule ∈ featureRules principal id) :
    rule.kind ∈ [Kind.template, .distributionList, .customNotification, .emailNotification] := by
  obtain ⟨⟨flag, actions, kind⟩, hmem, hrule⟩ := List.mem_flatMap.mp h
  dsimp only at hrule
  split at hrule
  · rw [List.mem_singleton.mp (mem_each.mp hrule).2.1]
    have hkinds : ∀ feature ∈ features, feature.2.2 ∈
        [Kind.template, .distributionList, .customNotification, .emailNotification] := by decide
    exact hkinds _ hmem
  · cases hrule

theorem featureRules_eq (h : principal.AgreesOutside applicationId other)
    (hne : id ≠ applicationId) : featureRules principal id = featureRules other id := by
  have hcontains : ∀ key, (principal.applicationsWith key).contains id =
      (other.applicationsWith key).contains id := by
    intro key
    rw [Bool.eq_iff_iff, List.contains_iff_mem, List.contains_iff_mem, h.mem_applicationsWith hne]
  simp only [featureRules, hcontains]

/-! ### Keys of both scopes -/

section Keys

variable (hglobal : principal.holds .seeRoles = false)

include hglobal

/-- Without the global flag a role is managed within the applications that carry the scoped one,
and read by those who have it. -/
theorem allows_role_iff (hkind : entity.kind = .role) :
    (base principal).allows action entity = .ok true ↔
      (action ∈ Action.proper ∧ ∃ id, entity.owner? = some id ∧
        id ∈ principal.applicationsWith ApplicationFlag.seeRoles.key) ∨
      (action = .read ∧ ∃ id, entity.id = some id ∧ id ∈ principal.roleIds) := by
  have happlications : ¬ Permit (BaseRules.applications principal) action entity.kind entity := by
    simp [BaseRules.applications, BaseRules.applicationTree, BaseRules.permit_byLists, hkind]
  have husers : ¬ Permit (BaseRules.users principal) action entity.kind entity := by
    simp [BaseRules.users, hkind]
  rw [allows, check_base_eq_true_iff, BaseRules.permit_all_of_person (.inl hkind),
    or_iff_right happlications, or_iff_left husers, BaseRules.permit_roles]
  simp [hkind, hglobal]

/-- So is a channel, unless a flag opens all that applications are made of. -/
theorem allows_channel_iff (hkind : entity.kind = .channel) :
    (base principal).allows action entity = .ok true ↔
      (action ∈ Action.proper ∧ ∃ id, entity.owner? = some id ∧
        id ∈ principal.applicationsWith ApplicationFlag.seeRoles.key) ∨
      (action = .read ∧ principal.holds .seeApplications = true) ∨
      principal.holds .manageApplications = true := by
  have happlications : Permit (BaseRules.applications principal) action entity.kind entity ↔
      (action = .read ∧ principal.holds .seeApplications = true) ∨
        principal.holds .manageApplications = true := by
    simp [BaseRules.applications, BaseRules.applicationTree, BaseRules.permit_byLists, hkind,
      and_comm]
  have husers : ¬ Permit (BaseRules.users principal) action entity.kind entity := by
    simp [BaseRules.users, hkind]
  rw [allows, check_base_eq_true_iff, BaseRules.permit_all_of_person (.inr (.inl hkind)),
    happlications, or_iff_left husers, or_comm, BaseRules.permit_roles]
  simp [hkind, hglobal]

end Keys

/-- Without the global flag users are read only, whatever is carried for an application. -/
theorem allows_user_iff (hglobal : principal.holds .seeUsers = false)
    (hkind : entity.kind = .user) :
    (base principal).allows action entity = .ok true ↔ action = .read := by
  have happlications : ¬ Permit (BaseRules.applications principal) action entity.kind entity := by
    simp [BaseRules.applications, BaseRules.applicationTree, BaseRules.permit_byLists, hkind]
  have husers : Permit (BaseRules.users principal) action entity.kind entity ↔ action = .read := by
    simp [BaseRules.users, hkind, hglobal]
  rw [allows, check_base_eq_true_iff, BaseRules.permit_all_of_person (.inr (.inr hkind)),
    or_iff_right happlications, husers, BaseRules.permit_roles]
  simp [hkind]

/-- Settings are changed with both global flags. -/
theorem possible_setting_iff : (base principal).possible action .setting = true ↔
    action = .read ∨
      action = .update ∧ principal.holds .seeUsers = true ∧ principal.holds .seeRoles = true := by
  have hsettings : Concern (BaseRules.all principal) action .setting ↔
      Concern (BaseRules.settings principal) action .setting := by
    simp [BaseRules.all, BaseRules.applications, BaseRules.applicationTree, BaseRules.byLists,
      BaseRules.forms, BaseRules.resources, BaseRules.withRecords, BaseRules.users,
      BaseRules.notifications, BaseRules.apiConfigurations, BaseRules.roles]
  rw [possible_base_iff, hsettings, BaseRules.settings]
  cases principal.holds .seeUsers <;> cases principal.holds .seeRoles <;> simp

/-- **Application flags stay inside their application.** For two principals that agree outside an
application, the base abilities decide alike about everything but the roles and channels that
belong to it, and for every other application they are extended by the same rules, none of which
is about roles, channels, users or settings. The keys of both scopes never stand for the global
flags: without these, roles and channels are managed within the applications that carry the
scoped flag, and users and settings are not changed at all. -/
theorem base_stays_inside (h : principal.AgreesOutside applicationId other) :
    (∀ action entity, entity.owner? ≠ some applicationId →
      (base principal).allows action entity = (base other).allows action entity) ∧
    (∀ action kind, (base principal).possible action kind = (base other).possible action kind) ∧
    (∀ id, id ≠ applicationId → ∃ added,
      (base principal).extendForFeatures id = (base principal).extend added ∧
      (base other).extendForFeatures id = (base other).extend added ∧
      ∀ rule ∈ added, rule.kind ∈
        [Kind.template, .distributionList, .customNotification, .emailNotification]) ∧
    (principal.holds .seeRoles = false → ∀ action entity,
      (entity.kind = .role → ((base principal).allows action entity = .ok true ↔
        (action ∈ Action.proper ∧ ∃ id, entity.owner? = some id ∧
          id ∈ principal.applicationsWith ApplicationFlag.seeRoles.key) ∨
        (action = .read ∧ ∃ id, entity.id = some id ∧ id ∈ principal.roleIds))) ∧
      (entity.kind = .channel → ((base principal).allows action entity = .ok true ↔
        (action ∈ Action.proper ∧ ∃ id, entity.owner? = some id ∧
          id ∈ principal.applicationsWith ApplicationFlag.seeRoles.key) ∨
        (action = .read ∧ principal.holds .seeApplications = true) ∨
        principal.holds .manageApplications = true))) ∧
    (principal.holds .seeUsers = false → ∀ action entity, entity.kind = .user →
      ((base principal).allows action entity = .ok true ↔ action = .read)) ∧
    ∀ action, (base principal).possible action .setting = true ↔ action = .read ∨
      action = .update ∧ principal.holds .seeUsers = true ∧ principal.holds .seeRoles = true := by
  refine ⟨fun action entity => allows_base_eq h, fun action kind => possible_base_eq h,
    fun id hne => ⟨featureRules principal id, rfl, ?_, fun rule => kind_of_mem_featureRules⟩,
    fun hglobal action entity => ⟨fun hkind => allows_role_iff hglobal hkind,
      fun hkind => allows_channel_iff hglobal hkind⟩,
    fun hglobal action entity hkind => allows_user_iff hglobal hkind,
    fun action => possible_setting_iff⟩
  rw [featureRules_eq h hne]
  rfl

/-- A role that carries both keys for its application, next to one that carries nothing: what
belongs to another application is decided alike, and so is who may change users. -/
theorem base_stays_inside_bothKeys :
    let carrier : RoleGrant :=
      { id := ⟨1, by decide⟩
        applicationId := some ⟨3, by decide⟩
        applicationFlags := [ApplicationFlag.seeRoles.key, ApplicationFlag.seeUsers.key] }
    let principal : Principal := { userId := default, roles := [carrier] }
    let plain : Principal := { userId := default, roles := [carrier.unscoped] }
    let inside : Entity :=
      .role { id := some ⟨5, by decide⟩, applicationId := carrier.applicationId }
    let outside : Entity :=
      .role { id := some ⟨6, by decide⟩, applicationId := some ⟨4, by decide⟩ }
    (base principal).allows .update inside = .ok true ∧
      (base plain).allows .update inside = .ok false ∧
      (base principal).allows .update outside = (base plain).allows .update outside ∧
      (base principal).allows .update outside ≠ .ok true ∧
      (base principal).allows .update (.user {}) ≠ .ok true ∧
      (base principal).possible .update .setting = false := by
  intro carrier principal plain inside outside
  have hagrees : principal.AgreesOutside ⟨3, by decide⟩ plain :=
    { userId := rfl
      roles := .cons
        ⟨rfl, rfl, rfl, fun id hid hne => absurd (Option.some.inj hid).symm hne, rfl⟩ .nil
      groupIds := rfl
      attributes := rfl }
  obtain ⟨hallows, -, -, hroles, husers, hsettings⟩ := base_stays_inside hagrees
  refine ⟨Outcome.toOption_eq_some_iff.mp (by decide +kernel),
    Outcome.toOption_eq_some_iff.mp (by decide +kernel), hallows .update outside (by decide),
    ?_, ?_, ?_⟩
  · rw [Ne, (hroles (by decide) .update outside).1 rfl]
    decide
  · rw [Ne, husers (by decide) .update (.user {}) rfl]
    decide
  · rw [Bool.eq_false_iff, Ne, hsettings]
    decide

end Ability

end Clearance
