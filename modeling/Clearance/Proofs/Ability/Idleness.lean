import Clearance.Proofs.Ability.Scopes

/-!
# Rules that allow nothing

Whether an action is possible on a kind is asked without regard to conditions. So a rule whose
condition no object meets makes an action possible that is allowed on nothing. Most rules of the
base ability cannot come to that: a role list that is empty admits everybody, so there always is
an object that they are met by (`Clearance.Rule.AreBusy`).

Three rules can. They look for an identifier in a set that a principal's roles give, and the set
may be empty: without the flag for roles that about roles and channels, without a role that about
own roles, without a channel that about notifications. When no other rule is about the action, it
is *idle* (`Clearance.BaseRules.Idle`): possible on the kind, and refused on all objects of it.

`Clearance.Ability.possible_base_exact` says that there is nothing else: what is possible for the
base ability is what it allows on some object and what is idle. A principal without any role is
told that it can create, update and delete roles and channels, though none of them at all.
-/

namespace Clearance

open Outcome

namespace Rule

variable {rules others : List Rule} {actions : List Action} {kinds : List Kind}
  {condition : Option Condition} {action : Action} {kind : Kind}

/-! ### Rules that serve -/

/-- Rules **serve** an action on a kind if they permit it on some object of the kind. -/
def Serve (rules : List Rule) (action : Action) (kind : Kind) : Prop :=
  ∃ entity : Entity, entity.kind = kind ∧ Permit rules action kind entity

theorem serve_append : Serve (rules ++ others) action kind ↔
    Serve rules action kind ∨ Serve others action kind := by
  simp only [Serve, permit_append, and_or_left, exists_or]

/-- **Busy** rules serve all that they concern. -/
def AreBusy (rules : List Rule) : Prop :=
  ∀ ⦃action kind⦄, kind ∈ Kind.stored → Concern rules action kind → Serve rules action kind

theorem areBusy_nil : AreBusy [] := fun _ _ _ h => absurd h concern_nil

theorem areBusy_append (hrules : AreBusy rules) (hothers : AreBusy others) :
    AreBusy (rules ++ others) := by
  intro action kind hkind hconcern
  rw [concern_append] at hconcern
  exact serve_append.mpr (hconcern.imp (hrules hkind) (hothers hkind))

theorem areBusy_ite {flag : Bool} (hrules : AreBusy rules) (hothers : AreBusy others) :
    AreBusy (if flag then rules else others) := by
  cases flag
  · exact hothers
  · exact hrules

/-- What is allowed under a condition is busy if some object of each kind meets the condition. -/
theorem areBusy_allow (h : ∀ kind ∈ kinds, kind ∈ Kind.stored → ∃ entity : Entity,
      entity.kind = kind ∧ ∀ part ∈ condition, part.check entity = .ok true) :
    AreBusy (allow actions kinds condition) := by
  intro action kind hkind hconcern
  rw [concern_allow] at hconcern
  obtain ⟨entity, hentity, hmeets⟩ := h kind hconcern.1 hkind
  exact ⟨entity, hentity, permit_allow.mpr ⟨hconcern, hmeets⟩⟩

/-- Each kind with stored objects has one without entries in its lists. -/
theorem exists_unlisted (hkind : kind ∈ Kind.stored) :
    ∃ entity : Entity, entity.kind = kind ∧ entity.grants = [] := by
  cases kind
  case application => exact ⟨.application {} .null, rfl, rfl⟩
  case page => exact ⟨.page {} none {}, rfl, rfl⟩
  case step => exact ⟨.step {} none {}, rfl, rfl⟩
  case workflow => exact ⟨.workflow {}, rfl, rfl⟩
  case dashboard => exact ⟨.dashboard {}, rfl, rfl⟩
  case form => exact ⟨.form {}, rfl, rfl⟩
  case resource => exact ⟨.resource {}, rfl, rfl⟩
  case record => exact ⟨.record {}, rfl, rfl⟩
  case role => exact ⟨.role {}, rfl, rfl⟩
  case channel => exact ⟨.channel {}, rfl, rfl⟩
  case user => exact ⟨.user {}, rfl, rfl⟩
  case notification => exact ⟨.notification {}, rfl, rfl⟩
  case apiConfiguration => exact ⟨.apiConfiguration {}, rfl, rfl⟩
  case referenceData => exact ⟨.referenceData {}, rfl, rfl⟩
  all_goals exact absurd hkind (by decide)

theorem areBusy_allow_none : AreBusy (allow actions kinds) := by
  refine areBusy_allow fun kind _ hkind => ?_
  obtain ⟨entity, hentity, -⟩ := exists_unlisted hkind
  exact ⟨entity, hentity, by simp⟩

end Rule

open Rule

namespace BaseRules

variable {principal : Principal} {actions : List Action} {kinds : List Kind} {action : Action}
  {kind : Kind} {entity : Entity}

/-! ### The busy rules -/

/-- A list of an open type admits everybody while it is empty. -/
theorem areBusy_listed {type : PermissionType} (htype : type.openWhenEmpty = true) :
    AreBusy (allow actions kinds (listed principal type)) := by
  refine areBusy_allow fun kind _ hkind => ?_
  obtain ⟨entity, hentity, hgrants⟩ := exists_unlisted hkind
  refine ⟨entity, hentity, fun part hpart => ?_⟩
  obtain rfl := Option.mem_some.mp hpart
  rw [Listing.check_permissionCondition, hgrants]
  simpa [Listing.admits, Listing.rolesGranting, Listing.entries] using htype

theorem areBusy_byLists : AreBusy (byLists principal kinds) :=
  areBusy_append (areBusy_append (areBusy_listed rfl) (areBusy_listed rfl)) (areBusy_listed rfl)

theorem areBusy_withRecords {see create manage : GlobalFlag} :
    AreBusy (withRecords principal kind see create manage) := by
  refine areBusy_append (areBusy_append (areBusy_ite areBusy_allow_none (areBusy_listed rfl))
    (areBusy_ite areBusy_allow_none areBusy_nil)) (areBusy_ite ?_ ?_)
  · exact areBusy_append areBusy_allow_none areBusy_allow_none
  · exact areBusy_append (areBusy_listed rfl) (areBusy_listed rfl)

/-- The rule about applications that one works with may allow nothing, but applications without
entries may be read besides. -/
theorem areBusy_applications : AreBusy (applications principal) := by
  refine areBusy_append (areBusy_append (areBusy_ite areBusy_allow_none ?_)
    (areBusy_ite areBusy_allow_none areBusy_nil)) (areBusy_ite areBusy_allow_none areBusy_byLists)
  intro action kind hkind hconcern
  rw [concern_append, concern_allow, concern_allow, or_self, ← concern_allow] at hconcern
  exact serve_append.mpr (.inr (areBusy_listed rfl hkind hconcern))

/-- **All rules but those about roles and notifications are busy.** -/
theorem areBusy_others : AreBusy (applications principal ++ forms principal ++
    resources principal ++ users principal ++ apiConfigurations principal ++
    settings principal) := by
  have husers : AreBusy (users principal) := areBusy_ite areBusy_allow_none areBusy_allow_none
  have hconfigurations : AreBusy (apiConfigurations principal) :=
    areBusy_ite areBusy_allow_none areBusy_byLists
  have hsettings : AreBusy (settings principal) := areBusy_ite areBusy_allow_none areBusy_allow_none
  exact areBusy_append (areBusy_append (areBusy_append (areBusy_append
    (areBusy_append areBusy_applications areBusy_withRecords) areBusy_withRecords) husers)
    hconfigurations) hsettings

/-! ### What is idle -/

/-- An action on a kind is **idle** for a principal if the sets of identifiers are empty that the
rules about it look into, and no flag opens the kind. -/
inductive Idle (principal : Principal) : Action → Kind → Prop
  /-- Roles, without the flag for them in either scope; those one has are read. -/
  | role {action : Action} (hproper : action ∈ Action.proper)
      (hglobal : principal.holds .seeRoles = false)
      (hscoped : principal.applicationsWith ApplicationFlag.seeRoles.key = [])
      (hown : action = .read → principal.roleIds = []) : Idle principal action .role
  /-- Channels, without the flag for roles in either scope and without a flag for what
  applications are made of. -/
  | channel {action : Action} (hproper : action ∈ Action.proper)
      (hglobal : principal.holds .seeRoles = false)
      (hscoped : principal.applicationsWith ApplicationFlag.seeRoles.key = [])
      (hmanage : principal.holds .manageApplications = false)
      (hsee : action = .read → principal.holds .seeApplications = false) :
      Idle principal action .channel
  /-- Notifications, without a channel. -/
  | notification {action : Action} (haction : action = .read ∨ action = .update)
      (hchannels : principal.channelIds = []) : Idle principal action .notification

/-- The rules about notifications concern reading and updating them. -/
theorem concern_notifications : Concern (notifications principal) action kind ↔
    kind = .notification ∧ (action = .read ∨ action = .update) := by
  simp [notifications]

/-- Only they are about notifications. -/
theorem permit_all_of_notification (hkind : entity.kind = .notification) :
    Permit (all principal) action entity.kind entity ↔
      (action = .read ∨ action = .update) ∧ (unseen principal).check entity = .ok true := by
  simp [hkind, all, applications, applicationTree, permit_byLists, forms, resources,
    not_permit_withRecords, roles, users, notifications, apiConfigurations, settings]

/-- An unread notification of one of the principal's channels meets the condition. -/
theorem check_unseen {id : Uuid} (hid : id ∈ principal.channelIds) :
    (unseen principal).check (.notification { channelId := some id }) = .ok true := by
  rw [unseen, Condition.check_allOf_eq_true_iff]
  have hcell : (Entity.notification { channelId := some id }).cell "channel_id" =
      Cell.ofId (some id) := rfl
  have hsent : (Condition.fieldIn "channel_id" (principal.channelIds.map .id)).check
      (.notification { channelId := some id }) = .ok true := by
    rw [check_fieldIn (.inr (.inr rfl)), hcell]
    simpa [Cell.ofId, Cell.equals] using hid
  have hunread : (Condition.not (.relatedIn "seen_by" [principal.userId])).check
      (.notification { channelId := some id }) = .ok true := rfl
  simpa using ⟨hsent, hunread⟩

/-- No notification does without a channel. -/
theorem check_unseen_ne (hchannels : principal.channelIds = []) :
    (unseen principal).check entity ≠ .ok true := by
  intro h
  rw [unseen, Condition.check_allOf_eq_true_iff] at h
  have hsent := h _ List.mem_cons_self
  rw [check_fieldIn (.inr (.inr rfl)), hchannels] at hsent
  simp at hsent

end BaseRules

namespace Ability

variable {principal : Principal} {action : Action} {kind : Kind} {entity : Entity}

/-! ### What is possible -/

/-- What the rules of the base ability serve is what it allows on some object. -/
theorem serve_all_iff : Serve (BaseRules.all principal) action kind ↔
    ∃ entity, entity.kind = kind ∧ (base principal).allows action entity = .ok true := by
  refine exists_congr fun entity => and_congr_right fun hkind => ?_
  rw [allows, check_base_eq_true_iff, hkind]

/-- **What the rules about roles and channels concern** is allowed on some object or idle. -/
theorem exists_allows_or_idle_of_roles (hproper : action ∈ Action.proper)
    (hkind : kind = .role ∨ kind = .channel) :
    (∃ entity, entity.kind = kind ∧ (base principal).allows action entity = .ok true) ∨
      BaseRules.Idle principal action kind := by
  cases hglobal : principal.holds .seeRoles with
  | true =>
    obtain ⟨entity, rfl, -⟩ : ∃ entity : Entity, entity.kind = kind ∧ entity.grants = [] :=
      exists_unlisted (by rcases hkind with rfl | rfl <;> decide)
    refine .inl ⟨entity, rfl, ?_⟩
    rw [allows, check_base_eq_true_iff, BaseRules.permit_all_of_person
      (hkind.imp_right .inl), BaseRules.permit_roles]
    exact .inr (.inl (.inl ⟨hkind, hproper, .inl hglobal⟩))
  | false =>
    cases hscoped : principal.applicationsWith ApplicationFlag.seeRoles.key with
    | cons id rest =>
      -- an object of the first of these applications
      have hmem : id ∈ principal.applicationsWith ApplicationFlag.seeRoles.key := by
        rw [hscoped]
        exact List.mem_cons_self
      rcases hkind with rfl | rfl
      · exact .inl ⟨.role { applicationId := some id }, rfl,
          (allows_role_iff hglobal rfl).mpr (.inl ⟨hproper, id, rfl, hmem⟩)⟩
      · exact .inl ⟨.channel { applicationId := some id }, rfl,
          (allows_channel_iff hglobal rfl).mpr (.inl ⟨hproper, id, rfl, hmem⟩)⟩
    | nil =>
      rcases hkind with rfl | rfl
      · by_cases hown : action = .read ∧ principal.roleIds ≠ []
        · obtain ⟨rfl, hne⟩ := hown
          obtain ⟨id, hid⟩ := List.exists_mem_of_ne_nil _ hne
          exact .inl ⟨.role { id := some id }, rfl,
            (allows_role_iff hglobal rfl).mpr (.inr ⟨rfl, id, rfl, hid⟩)⟩
        · exact .inr (.role hproper hglobal hscoped (by simpa using hown))
      · by_cases hopened : (action = .read ∧ principal.holds .seeApplications = true) ∨
            principal.holds .manageApplications = true
        · exact .inl ⟨.channel {}, rfl, (allows_channel_iff hglobal rfl).mpr (.inr hopened)⟩
        · rw [not_or, Bool.not_eq_true, not_and, Bool.not_eq_true] at hopened
          exact .inr (.channel hproper hglobal hscoped hopened.2 hopened.1)

/-- **What the rules about notifications concern** is allowed on some object or idle. -/
theorem exists_allows_or_idle_of_notifications (haction : action = .read ∨ action = .update) :
    (∃ entity, entity.kind = .notification ∧
      (base principal).allows action entity = .ok true) ∨
      BaseRules.Idle principal action .notification := by
  rcases hchannels : principal.channelIds with _ | ⟨id, rest⟩
  · exact .inr (.notification haction hchannels)
  · refine .inl ⟨.notification { channelId := some id }, rfl, ?_⟩
    rw [allows, check_base_eq_true_iff, BaseRules.permit_all_of_notification rfl]
    refine ⟨haction, BaseRules.check_unseen ?_⟩
    rw [hchannels]
    exact List.mem_cons_self

/-- What is idle is possible, -/
theorem possible_of_idle (h : BaseRules.Idle principal action kind) :
    (base principal).possible action kind = true := by
  rw [possible_base_iff, BaseRules.all]
  simp only [concern_append, BaseRules.concern_roles, BaseRules.concern_notifications]
  cases h <;> simp_all

/-- and **refused on every object** of the kind. -/
theorem allows_of_idle (h : BaseRules.Idle principal action entity.kind) :
    (base principal).allows action entity = .ok false := by
  obtain ⟨answer, hanswer⟩ :
      ∃ answer, (base principal).check action entity.kind entity = .ok answer := exists_check_base
  have hnot : (base principal).allows action entity ≠ .ok true := by
    generalize hkind : entity.kind = kind at h
    cases h with
    | role hproper hglobal hscoped hown =>
      rw [Ne, allows_role_iff hglobal hkind, hscoped]
      rintro (⟨-, id, -, hid⟩ | ⟨hread, id, -, hid⟩)
      · cases hid
      · rw [hown hread] at hid
        cases hid
    | channel hproper hglobal hscoped hmanage hsee =>
      rw [Ne, allows_channel_iff hglobal hkind, hscoped]
      rintro (⟨-, id, -, hid⟩ | ⟨hread, hflag⟩ | hflag)
      · cases hid
      · simp [hsee hread] at hflag
      · simp [hmanage] at hflag
    | notification haction hchannels =>
      rw [Ne, allows, check_base_eq_true_iff, BaseRules.permit_all_of_notification hkind]
      exact fun hpermit => BaseRules.check_unseen_ne hchannels hpermit.2
  cases answer with
  | false => exact hanswer
  | true => exact absurd hanswer hnot

/-- **What is possible for the base ability**, about a kind with stored objects, is what it allows
on some object of the kind, and besides what is idle; the two exclude each other. -/
theorem possible_base_exact (hkind : kind ∈ Kind.stored) :
    ((base principal).possible action kind = true ↔
      (∃ entity, entity.kind = kind ∧ (base principal).allows action entity = .ok true) ∨
        BaseRules.Idle principal action kind) ∧
    (BaseRules.Idle principal action kind → ∀ entity, entity.kind = kind →
      (base principal).allows action entity = .ok false) := by
  refine ⟨⟨fun h => ?_, ?_⟩, fun hidle entity hentity => allows_of_idle (hentity ▸ hidle)⟩
  · by_cases hroles : (kind = .role ∨ kind = .channel) ∧ action ∈ Action.proper
    · exact exists_allows_or_idle_of_roles hroles.2 hroles.1
    by_cases hnotifications : kind = .notification ∧ (action = .read ∨ action = .update)
    · obtain ⟨rfl, haction⟩ := hnotifications
      exact exists_allows_or_idle_of_notifications haction
    -- the rules that are left serve what they concern
    have hothers : Concern (BaseRules.applications principal ++ BaseRules.forms principal ++
        BaseRules.resources principal ++ BaseRules.users principal ++
        BaseRules.apiConfigurations principal ++ BaseRules.settings principal) action kind := by
      rw [possible_base_iff, BaseRules.all] at h
      simpa only [concern_append, BaseRules.concern_roles, BaseRules.concern_notifications, hroles,
        hnotifications, or_false] using h
    have hserve := BaseRules.areBusy_others hkind hothers
    refine .inl (serve_all_iff.mp ?_)
    rw [BaseRules.all]
    simp only [serve_append] at hserve ⊢
    grind
  · rintro (⟨entity, rfl, hallows⟩ | hidle)
    · exact possible_of_check hallows
    · exact possible_of_idle hidle

/-- Roles are managed in one application and notifications come from nowhere: some role is updated,
and no notification is read, though both are possible. -/
theorem possible_base_exact_oneApplication :
    let manager : RoleGrant :=
      { id := 2, applicationId := some 3, applicationFlags := [ApplicationFlag.seeRoles.key] }
    let principal : Principal := { userId := 1, roles := [manager] }
    (base principal).possible .update .role = true ∧
      (∃ entity, entity.kind = .role ∧ (base principal).allows .update entity = .ok true) ∧
      (base principal).possible .read .notification = true ∧
      ∀ entity, entity.kind = .notification →
        (base principal).allows .read entity = .ok false := by
  intro manager principal
  have hrole : (base principal).possible .update .role = true := by decide
  obtain ⟨hroles, -⟩ := @possible_base_exact principal .update .role (by decide)
  obtain ⟨hnotifications, hrefused⟩ :=
    @possible_base_exact principal .read .notification (by decide)
  have hidle : BaseRules.Idle principal .read .notification := .notification (.inl rfl) rfl
  refine ⟨hrole, (hroles.mp hrole).resolve_right ?_, hnotifications.mpr (.inr hidle),
    hrefused hidle⟩
  rintro ⟨-, -, hscoped, -⟩
  exact absurd hscoped (by decide)

/-- Without any role, and so without a flag for roles in either scope, it is possible to create,
update and delete roles and channels, and no role or channel is there on which it is allowed. -/
theorem possible_base_noRoles :
    let principal : Principal := { userId := 1 }
    principal.holds .seeRoles = false ∧
      principal.applicationsWith ApplicationFlag.seeRoles.key = [] ∧
      ∀ action ∈ [Action.create, .update, .delete], ∀ kind ∈ [Kind.role, .channel],
        (base principal).possible action kind = true ∧
        ¬ ∃ entity, entity.kind = kind ∧ (base principal).allows action entity = .ok true := by
  intro principal
  refine ⟨rfl, rfl, fun action haction kind hkind => ?_⟩
  have hidle : BaseRules.Idle principal action kind := by
    have hproper : action ∈ Action.proper := by
      revert action
      decide
    have hread : action ≠ .read := by
      rintro rfl
      exact absurd haction (by decide)
    obtain rfl | rfl : kind = .role ∨ kind = .channel := by simpa using hkind
    · exact .role hproper rfl rfl fun h => absurd h hread
    · exact .channel hproper rfl rfl rfl fun h => absurd h hread
  refine ⟨possible_of_idle hidle, ?_⟩
  rintro ⟨entity, rfl, hallows⟩
  rw [allows_of_idle hidle] at hallows
  cases hallows

end Ability

end Clearance
