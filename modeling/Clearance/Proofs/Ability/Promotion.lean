import Clearance.Proofs.Ability.Areas
import Clearance.Proofs.Ability.Borrowing
import Clearance.Proofs.Ability.Growth
import Clearance.Proofs.Ability.Opening
import Clearance.Proofs.Ability.Widening

/-!
# Promotion

A principal who is given more roles and groups may do at least what they might do before
(`Clearance.Ability.promotion_keeps`). Nothing in the way abilities are made says so at once. A
new flag replaces whole branches of rules by others; a new entry in a list may keep the rule
about archived records from being added, or add rules where none were; and an ability that
allows more borrows less, since only what is not allowed yet is borrowed.

The rules of the base ability are *covered* one by one: for each there is one about the same
action and kind that decides about at least as many objects
(`Clearance.BaseRules.coveredBy_all`). That carries over to decisions because the base ability
has no rule that denies. The extensions are compared by what they decide.
-/

namespace Clearance

open Outcome

/-! ### Covered rules -/

namespace Rule

/-- A rule **covers** another: it is about the same action and kind, and decides about every
object that the other decides about. -/
structure Covers (rule other : Rule) : Prop where
  /-- The action is the same. -/
  action : rule.action = other.action
  /-- The kind is the same. -/
  kind : rule.kind = other.kind
  /-- It decides about at least as many objects. -/
  meets : ∀ entity, other.meets entity = .ok true → rule.meets entity = .ok true

/-- Rules that are **covered by** others: each of them by one. -/
def CoveredBy (rules others : List Rule) : Prop :=
  ∀ rule ∈ rules, ∃ other ∈ others, other.Covers rule

variable {rules others left right : List Rule} {actions : List Action} {kinds : List Kind}
  {action : Action} {kind : Kind} {entity : Entity}

theorem coveredBy_nil : CoveredBy [] others := by
  intro rule hrule
  cases hrule

theorem coveredBy_append (hleft : CoveredBy rules left) (hright : CoveredBy others right) :
    CoveredBy (rules ++ others) (left ++ right) := by
  refine List.forall_mem_append.mpr ⟨fun rule hrule => ?_, fun rule hrule => ?_⟩
  · obtain ⟨other, hother, hcovers⟩ := hleft rule hrule
    exact ⟨other, List.mem_append_left _ hother, hcovers⟩
  · obtain ⟨other, hother, hcovers⟩ := hright rule hrule
    exact ⟨other, List.mem_append_right _ hother, hcovers⟩

/-- **Rules that depend on a flag** are covered if the flag brings rules that cover those it
replaces. -/
theorem coveredBy_ite {flag flagOther : Bool} (hflag : flag = true → flagOther = true)
    (hrules : CoveredBy rules left) (hothers : CoveredBy others right)
    (hreplaced : CoveredBy others left) :
    CoveredBy (if flag then rules else others) (if flagOther then left else right) := by
  cases flag with
  | true =>
    rw [hflag rfl]
    exact hrules
  | false =>
    cases flagOther with
    | true => exact hreplaced
    | false => exact hothers

/-- What is allowed under a condition is covered by what is allowed under a weaker one, -/
theorem coveredBy_allow {condition weaker : Option Condition}
    (h : ∀ entity, (∀ part ∈ condition, part.check entity = .ok true) →
      ∀ part ∈ weaker, part.check entity = .ok true) :
    CoveredBy (allow actions kinds condition) (allow actions kinds weaker) := by
  intro rule hrule
  obtain ⟨haction, hkind, rfl, -⟩ := mem_each.mp hrule
  refine ⟨{ action := rule.action, kind := rule.kind, condition := weaker },
    mem_each.mpr ⟨haction, hkind, rfl, rfl⟩, rfl, rfl, fun entity hmeets => ?_⟩
  exact meets_eq_true_iff.mpr (h entity (meets_eq_true_iff.mp hmeets))

/-- and by what is allowed under none, for more actions and kinds. -/
theorem coveredBy_allow_none {moreActions : List Action} {moreKinds : List Kind}
    {condition : Option Condition} (hactions : actions ⊆ moreActions) (hkinds : kinds ⊆ moreKinds) :
    CoveredBy (allow actions kinds condition) (allow moreActions moreKinds) := by
  intro rule hrule
  obtain ⟨haction, hkind, -⟩ := mem_each.mp hrule
  exact ⟨{ action := rule.action, kind := rule.kind },
    mem_each.mpr ⟨hactions haction, hkinds hkind, rfl, rfl⟩, rfl, rfl, fun _ _ => rfl⟩

theorem coveredBy_refl (rules : List Rule) : CoveredBy rules rules :=
  fun rule hrule => ⟨rule, hrule, rfl, rfl, fun _ h => h⟩

theorem coveredBy_left (h : CoveredBy rules left) : CoveredBy rules (left ++ right) := by
  intro rule hrule
  obtain ⟨other, hother, hcovers⟩ := h rule hrule
  exact ⟨other, List.mem_append_left _ hother, hcovers⟩

theorem Covers.isAbout {rule other : Rule} (h : other.Covers rule)
    (habout : rule.isAbout action kind = true) : other.isAbout action kind = true := by
  rw [isAbout_iff] at habout ⊢
  rwa [h.kind, h.action]

/-- Covered rules permit no more than those that cover them. -/
theorem Permit.of_coveredBy (hpermit : Permit rules action kind entity)
    (h : CoveredBy rules others) : Permit others action kind entity := by
  obtain ⟨rule, hrule, habout, hmeets⟩ := hpermit
  obtain ⟨other, hother, hcovers⟩ := h rule hrule
  exact ⟨other, hother, hcovers.isAbout habout, hcovers.meets entity hmeets⟩

end Rule

/-! ### The base ability -/

namespace BaseRules

open Rule

variable {principal other : Principal} {actions : List Action} {kinds moreKinds : List Kind}

theorem coveredBy_listed (h : principal.IsWithin other) {type : PermissionType} :
    CoveredBy (allow actions kinds (listed principal type))
      (allow actions kinds (listed other type)) := by
  refine coveredBy_allow fun entity hmeets => ?_
  simp only [listed, Option.mem_def, Option.some.injEq, forall_eq',
    Listing.check_permissionCondition, Except.ok.injEq] at hmeets ⊢
  exact Listing.admits_of_isWithin h hmeets

theorem coveredBy_byLists (h : principal.IsWithin other) :
    CoveredBy (byLists principal kinds) (byLists other kinds) :=
  coveredBy_append (coveredBy_append (coveredBy_listed h) (coveredBy_listed h)) (coveredBy_listed h)

/-- The lists are covered by a flag for everything. -/
theorem coveredBy_byLists_none (hactions : Action.lendable ⊆ actions) (hkinds : kinds ⊆ moreKinds) :
    CoveredBy (byLists principal kinds) (allow actions moreKinds) := by
  have hone : ∀ action ∈ Action.lendable, [action] ⊆ actions := by
    intro action haction
    simpa using hactions haction
  simp only [byLists, CoveredBy, List.forall_mem_append]
  exact ⟨⟨coveredBy_allow_none (hone .read (by decide)) hkinds,
    coveredBy_allow_none (hone .update (by decide)) hkinds⟩,
    coveredBy_allow_none (hone .delete (by decide)) hkinds⟩

/-- More identifiers are looked for in more places. -/
theorem check_fieldIn_of_subset {name : String} {ids more : List Uuid} {entity : Entity}
    (hname : name = "id" ∨ name = "application_id" ∨ name = "channel_id") (hids : ids ⊆ more)
    (h : (Condition.fieldIn name (ids.map .id)).check entity = .ok true) :
    (Condition.fieldIn name (more.map .id)).check entity = .ok true := by
  rw [check_fieldIn hname, Except.ok.injEq, List.any_eq_true] at h ⊢
  obtain ⟨operand, hoperand, hequals⟩ := h
  exact ⟨operand, List.map_subset _ hids hoperand, hequals⟩

theorem coveredBy_applications (h : principal.IsWithin other) :
    CoveredBy (applications principal) (applications other) := by
  have hown : CoveredBy (allow [.read] [.application] (some (ownActive principal)))
      (allow [.read] [.application] (some (ownActive other))) := by
    refine coveredBy_allow fun entity hmeets => ?_
    simp only [Option.mem_def, Option.some.injEq, forall_eq', ownActive,
      Condition.check_allOf_eq_true_iff, List.forall_mem_cons] at hmeets ⊢
    exact ⟨check_fieldIn_of_subset (.inl rfl) h.applicationIds hmeets.1, hmeets.2⟩
  refine coveredBy_append (coveredBy_append ?_ ?_) ?_
  · refine coveredBy_ite h.holds (coveredBy_refl _)
      (coveredBy_append hown (coveredBy_listed h)) ?_
    exact List.forall_mem_append.mpr ⟨coveredBy_allow_none (by simp) (by simp [applicationTree]),
      coveredBy_allow_none (by simp) (by simp [applicationTree])⟩
  · exact coveredBy_ite h.holds (coveredBy_refl _) coveredBy_nil coveredBy_nil
  · exact coveredBy_ite h.holds (coveredBy_refl _) (coveredBy_byLists h)
      (coveredBy_byLists_none (by decide) (by decide))

theorem coveredBy_withRecords (h : principal.IsWithin other) {kind : Kind}
    {see create manage : GlobalFlag} :
    CoveredBy (withRecords principal kind see create manage)
      (withRecords other kind see create manage) := by
  refine coveredBy_append (coveredBy_append ?_ ?_) ?_
  · exact coveredBy_ite h.holds (coveredBy_refl _) (coveredBy_listed h)
      (coveredBy_allow_none (by simp) (by simp))
  · exact coveredBy_ite h.holds (coveredBy_refl _) coveredBy_nil coveredBy_nil
  · refine coveredBy_ite h.holds (coveredBy_refl _)
      (coveredBy_append (coveredBy_listed h) (coveredBy_listed h)) (coveredBy_left ?_)
    exact List.forall_mem_append.mpr ⟨coveredBy_allow_none (by decide) (by simp),
      coveredBy_allow_none (by decide) (by simp)⟩

theorem coveredBy_roles (h : principal.IsWithin other) :
    CoveredBy (roles principal) (roles other) := by
  refine coveredBy_ite h.holds (coveredBy_refl _) (coveredBy_append ?_ ?_) ?_
  · refine coveredBy_allow fun entity hmeets => ?_
    simp only [Option.mem_def, Option.some.injEq, forall_eq'] at hmeets ⊢
    exact check_fieldIn_of_subset (.inr (.inl rfl)) (h.applicationsWith _) hmeets
  · refine coveredBy_allow fun entity hmeets => ?_
    simp only [Option.mem_def, Option.some.injEq, forall_eq'] at hmeets ⊢
    exact check_fieldIn_of_subset (.inl rfl) h.roleIds hmeets
  · exact List.forall_mem_append.mpr ⟨coveredBy_allow_none (by simp) (by simp),
      coveredBy_allow_none (by decide) (by simp)⟩

theorem coveredBy_notifications (h : principal.IsWithin other) :
    CoveredBy (notifications principal) (notifications other) := by
  refine coveredBy_allow fun entity hmeets => ?_
  simp only [Option.mem_def, Option.some.injEq, forall_eq', unseen,
    Condition.check_allOf_eq_true_iff, List.forall_mem_cons] at hmeets ⊢
  refine ⟨check_fieldIn_of_subset (.inr (.inr rfl)) h.channelIds hmeets.1, ?_⟩
  rw [← h.userId]
  exact hmeets.2

/-- **The base ability of a principal is covered** by that of any other whom the principal is
within. -/
theorem coveredBy_all (h : principal.IsWithin other) : CoveredBy (all principal) (all other) := by
  have husers : CoveredBy (users principal) (users other) :=
    coveredBy_ite h.holds (coveredBy_refl _) (coveredBy_refl _)
      (coveredBy_allow_none (by decide) (by simp))
  have hapi : CoveredBy (apiConfigurations principal) (apiConfigurations other) :=
    coveredBy_ite h.holds (coveredBy_refl _) (coveredBy_byLists h)
      (coveredBy_byLists_none (by decide) (by decide))
  have hsettings : CoveredBy (settings principal) (settings other) := by
    refine coveredBy_ite (fun hboth => ?_) (coveredBy_refl _) (coveredBy_refl _)
      (coveredBy_allow_none (by simp) (by simp))
    rw [Bool.and_eq_true] at hboth ⊢
    exact hboth.imp h.holds h.holds
  exact coveredBy_append (coveredBy_append (coveredBy_append (coveredBy_append (coveredBy_append
    (coveredBy_append (coveredBy_append (coveredBy_applications h) (coveredBy_withRecords h))
      (coveredBy_withRecords h)) (coveredBy_roles h)) husers) (coveredBy_notifications h)) hapi)
    hsettings

end BaseRules

namespace Ability

open FormRecords

variable {principal other : Principal} {limit : Int} {store : Store} {form content entity : Entity}
  {ability extended extendedOther : Ability} {action : Action} {kind : Kind} {record : Record}
  {access : Condition} {rules : List Rule}

/-- What the base ability allows is kept, -/
theorem check_base_of_isWithin (h : principal.IsWithin other)
    (hallows : (base principal).check action kind entity = .ok true) :
    (base other).check action kind entity = .ok true :=
  check_base_eq_true_iff.mpr
    ((check_base_eq_true_iff.mp hallows).of_coveredBy (BaseRules.coveredBy_all h))

/-- and what it makes possible. -/
theorem possible_base_of_isWithin (h : principal.IsWithin other)
    (hpossible : (base principal).possible action kind = true) :
    (base other).possible action kind = true := by
  rw [possible_of_isOpen BaseRules.isOpen_all] at hpossible ⊢
  obtain ⟨rule, hrule, habout⟩ := hpossible
  obtain ⟨covering, hcovering, hcovers⟩ := BaseRules.coveredBy_all h rule hrule
  exact ⟨covering, hcovering, hcovers.isAbout habout⟩

/-! ### The records of a form -/

/-- What a form opens to a principal, and holds of an object, it opens to another whom the
principal is within: its rules for the other are there, so its list could be read. -/
theorem exists_opens_of_isWithin (h : principal.IsWithin other)
    (hopens : Opens limit principal form action access) (hholds : access.holds entity = true)
    (hadds : Adds limit form ability other action rules)
    (hpossible : ability.possible action .record = false) :
    ∃ accessOther, Opens limit other form action accessOther ∧
      accessOther.holds entity = true := by
  obtain ⟨type, htype, haccess⟩ := hopens.given
  have hgiven : ∀ found, Listing.recordAccess limit form.grants type other = .ok found →
      ∃ accessOther ∈ found, accessOther.holds entity = true := fun found hfound =>
    Listing.exists_recordAccess_of_isWithin h haccess hfound ⟨access, rfl, hholds⟩
  have hopened : ∀ accessOther, Opens limit other form action accessOther →
      ∃ accessOther, Opens limit other form action accessOther ∧
        accessOther.holds entity = true := by
    intro accessOther hopensOther
    obtain ⟨typeOther, htypeOther, haccessOther⟩ := hopensOther.given
    obtain rfl : type = typeOther := Option.some.inj (htype.symm.trans htypeOther)
    obtain ⟨given, hmem, hholdsOther⟩ := hgiven _ haccessOther
    obtain rfl := Option.some.inj hmem
    exact ⟨accessOther, hopensOther, hholdsOther⟩
  cases hadds with
  | possible htrue => exact Bool.noConfusion (hpossible.symm.trans htrue)
  | closed _ hclosed =>
    -- what holds of an object is not the condition that nothing meets
    obtain ⟨found, hfound, hnothing⟩ := hclosed type htype
    obtain ⟨accessOther, hmem, hholdsOther⟩ := hgiven found hfound
    have hempty := (hnothing accessOther hmem).2
    cases accessOther with
    | always value =>
      cases value with
      | true => cases hempty
      | false => cases hholdsOther
    | _ => cases hempty
  | opened accessOther _ hopensOther _ => exact hopened accessOther hopensOther
  | hidden accessOther _ hopensOther _ _ => exact hopened accessOther hopensOther

/-- A record that was newly allowed is not refused to another whom the principal is within,
where no record could be acted on before. -/
theorem allows_ne_false_of_newly_allowed (h : principal.IsWithin other)
    (hextended : (base principal).extendForRecords limit form = .ok extended)
    (hother : (base other).extendForRecords limit form = .ok extendedOther)
    (hpossible : (base other).possible action .record = false)
    (hallows : extended.allows action (.record record) = .ok true) :
    extendedOther.allows action (.record record) ≠ .ok false := by
  have hbefore : (base principal).possible action .record = false := by
    refine Bool.eq_false_iff.mpr fun htrue => ?_
    exact Bool.noConfusion (hpossible.symm.trans (possible_base_of_isWithin h htrue))
  obtain ⟨hsubmission, access, hopens, hcheck, hshown⟩ :=
    exists_opens_of_allows rfl hextended hbefore hallows
  obtain ⟨added, -, -, habout⟩ := exists_adds rfl hother
  obtain ⟨rules, hrules, -⟩ := habout action
  obtain ⟨accessOther, hopensOther, hholds⟩ :=
    exists_opens_of_isWithin h hopens (Condition.holds_of_check hcheck)
      (adds_of_openingRules hrules) hpossible
  have hcheckOther : accessOther.check (.record record) ≠ .ok false := by
    intro hfalse
    exact Bool.noConfusion (hholds.symm.trans (Condition.holds_of_check hfalse))
  refine allows_ne_false_of_opens rfl hother hpossible hsubmission hopensOther hcheckOther
    fun hread hupdate => hshown hread ?_
  -- who may not update the form now could not before
  obtain ⟨answer, hanswer⟩ : ∃ answer, (base principal).check .update form.kind form = .ok answer :=
    exists_check_base
  cases answer with
  | false => exact hanswer
  | true => cases hupdate.symm.trans (check_base_of_isWithin h hanswer)

/-- **The extension for a form keeps** what it allowed: it does not refuse, and on loaded objects
it answers. -/
theorem extendForRecords_of_isWithin (h : principal.IsWithin other)
    (hextended : (base principal).extendForRecords limit form = .ok extended)
    (hother : (base other).extendForRecords limit form = .ok extendedOther)
    (hallows : extended.allows action entity = .ok true) :
    extendedOther.allows action entity ≠ .ok false ∧
      (entity.IsLoaded → extendedOther.allows action entity = .ok true) := by
  have hmany : AppendsMany (base other) extendedOther := appendsMany_of_extendForRecords hother
  have hbase : (base other).allows action entity = .ok true →
      extendedOther.allows action entity ≠ .ok false := by
    intro hbefore
    have hkept : extendedOther.allows action entity = .ok true :=
      (grows_of_appendsMany hmany).allowed hbefore
    rw [hkept]
    simp
  have hrefuses : extendedOther.allows action entity ≠ .ok false := by
    by_cases hbefore : (base principal).allows action entity = .ok true
    · exact hbase (check_base_of_isWithin h hbefore)
    · have hkind : entity.kind = .record := by
        by_contra hne
        rw [allows_of_kind_ne rfl hextended hne] at hallows
        exact hbefore hallows
      cases entity with
      | record record =>
        cases hpossible : (base other).possible action .record with
        | true => exact hbase (check_base_record.trans (congrArg Except.ok hpossible))
        | false => exact allows_ne_false_of_newly_allowed h hextended hother hpossible hallows
      | _ => cases hkind
  refine ⟨hrefuses, fun hloaded => ?_⟩
  obtain ⟨answer, hanswer⟩ : ∃ answer, extendedOther.allows action entity = .ok answer :=
    exists_allows_of_appendsMany hmany hloaded
  cases answer with
  | true => exact hanswer
  | false => exact absurd hanswer hrefuses

/-! ### Content -/

/-- What lends to a principal lends to any other whom the principal is within. -/
theorem lends_of_isWithin (h : principal.IsWithin other)
    (hlends : (base principal).Lends action entity) : (base other).Lends action entity := by
  rw [Lends] at hlends ⊢
  split at hlends
  · next hkind =>
    obtain ⟨lender, grant, hlender, hgrant, htype, hrole⟩ := hlends
    obtain rfl : principal = lender := Option.some.inj hlender
    rw [if_pos hkind]
    exact ⟨other, grant, rfl, hgrant, htype, h.roleIds hrole⟩
  · next hkind =>
    rw [if_neg hkind]
    exact check_base_of_isWithin h hlends

/-- The base ability is extended for every content of a store that is open. -/
theorem exists_extendForContent_base (hopen : store.isOpen = true) (hkeyed : store.IsKeyed) :
    ∃ extended, (base principal).extendForContent store content none = .ok extended := by
  cases hextended : (base principal).extendForContent store content none with
  | ok extended => exact ⟨extended, rfl⟩
  | error error =>
    obtain ⟨fault, -, action, -, entity, hfault, -⟩ :=
      fault_of_extendForContent hopen hkeyed hextended
    exact absurd hfault allows_base_ne_error

/-- **The extension for a content keeps** what it allowed on the content and on all objects that
are not told from it. -/
theorem extendForContent_of_isWithin (h : principal.IsWithin other) {id : Uuid}
    (hopen : store.isOpen = true) (hkeyed : store.IsKeyed) (hid : content.id = some id)
    (hextended : (base principal).extendForContent store content none = .ok extended)
    (hother : (base other).extendForContent store content none = .ok extendedOther)
    (hentity : entity.kind = content.kind → entity.id = content.id → entity = content)
    (hallows : extended.allows action entity = .ok true) :
    extendedOther.allows action entity = .ok true := by
  obtain ⟨hlendable, hothers⟩ := allows_extendForContent hopen hkeyed hid hextended
  obtain ⟨hlendableOther, hothersOther⟩ := allows_extendForContent hopen hkeyed hid hother
  by_cases haside : action ∉ Action.lendable ∨ entity.kind ≠ content.kind ∨ entity.id ≠ content.id
  · rw [hothers action entity haside] at hallows
    rw [hothersOther action entity haside]
    exact check_base_of_isWithin h hallows
  · simp only [not_or, not_not] at haside
    obtain ⟨haction, hkind, hsame⟩ := haside
    obtain rfl := hentity hkind hsame
    -- the more is allowed, the less is borrowed, but what lent before still lends
    rw [hlendableOther action haction]
    refine ((hlendable action haction).mp hallows).imp (check_base_of_isWithin h) ?_
    rintro ⟨lender, habove, hlends⟩
    exact ⟨lender, habove, lends_of_isWithin h hlends⟩

/-! ### Promotion -/

/-- **A promotion keeps what was allowed.** Let a principal be within another. The base ability
of the other allows what that of the principal does, on every object, and makes possible what
that does. So it is with both abilities extended for a form: the one of the other refuses
nothing that the one of the principal allows, and allows it on loaded objects. And so it is with
both extended for a content that has an identifier, which always succeeds on an open store. -/
theorem promotion_keeps (h : principal.IsWithin other) :
    (∀ (action : Action) (kind : Kind) (entity : Entity),
      (base principal).check action kind entity = .ok true →
        (base other).check action kind entity = .ok true) ∧
    (∀ (action : Action) (kind : Kind), (base principal).possible action kind = true →
      (base other).possible action kind = true) ∧
    (∀ (limit : Int) (form : Entity) (extended extendedOther : Ability),
      (base principal).extendForRecords limit form = .ok extended →
      (base other).extendForRecords limit form = .ok extendedOther →
      ∀ (action : Action) (entity : Entity), extended.allows action entity = .ok true →
        extendedOther.allows action entity ≠ .ok false ∧
          (entity.IsLoaded → extendedOther.allows action entity = .ok true)) ∧
    ∀ (store : Store) (content : Entity) (id : Uuid), store.isOpen = true → store.IsKeyed →
      content.id = some id → ∃ extended extendedOther,
        (base principal).extendForContent store content none = .ok extended ∧
        (base other).extendForContent store content none = .ok extendedOther ∧
        ∀ (action : Action) (entity : Entity),
          (entity.kind = content.kind → entity.id = content.id → entity = content) →
          extended.allows action entity = .ok true →
            extendedOther.allows action entity = .ok true := by
  refine ⟨fun _ _ _ => check_base_of_isWithin h, fun _ _ => possible_base_of_isWithin h,
    fun limit form extended extendedOther hextended hother action entity =>
      extendForRecords_of_isWithin h hextended hother,
    fun store content id hopen hkeyed hid => ?_⟩
  obtain ⟨extended, hextended⟩ : ∃ extended,
      (base principal).extendForContent store content none = .ok extended :=
    exists_extendForContent_base hopen hkeyed
  obtain ⟨extendedOther, hother⟩ : ∃ extended,
      (base other).extendForContent store content none = .ok extended :=
    exists_extendForContent_base hopen hkeyed
  exact ⟨extended, extendedOther, hextended, hother, fun action entity hentity =>
    extendForContent_of_isWithin h hopen hkeyed hid hextended hother hentity⟩

/-- A reader of a form is made its editor: a second role lets update the form, and the records
that were read before are read still. -/
theorem promotion_keeps_editor :
    let reader : Principal := { userId := 1, roles := [{ id := 2 }] }
    let editor : Principal := { userId := 1, roles := [{ id := 2 }, { id := 3 }], groupIds := [7] }
    let form : Entity :=
      .form
        { id := some 4
          grants := [{ type := "canSeeRecords", roleId := 2 },
            { type := "canUpdate", roleId := 3 }] }
    let record : Record := { id := some 5, formId := some 4, data := .object [] }
    reader.IsWithin editor ∧
      (base reader).allows .update form = .ok false ∧ (base editor).allows .update form = .ok true ∧
      ∃ extended, (base editor).extendForRecords 32 form = .ok extended ∧
        extended.allows .read (.record record) ≠ .ok false := by
  intro reader editor form record
  have hwithin : reader.IsWithin editor :=
    { userId := rfl
      attributes := fun _ => rfl
      roles := by simp [reader, editor]
      groups := by simp [reader] }
  have hparse : ∀ principal, RulesParse 32 principal form := by
    intro principal
    refine rulesParse_of_no_rules fun grant hgrant => ?_
    rcases List.mem_pair.mp hgrant with rfl | rfl <;> rfl
  have hread : ((base reader).extendForRecords 32 form).toOption.map
      (·.allows .read (.record record)) = some (.ok true) := by decide +kernel
  obtain ⟨extended, hextended, hallows⟩ := Option.map_eq_some_iff.mp hread
  obtain ⟨extendedOther, hother⟩ :
      ∃ extended, (base editor).extendForRecords 32 form = .ok extended :=
    exists_extendForRecords rfl (hparse editor) exists_check_base
  have hkeeps := (promotion_keeps hwithin).2.2.1 32 form extended extendedOther
    (toOption_eq_some_iff.mp hextended) hother .read (.record record) hallows
  exact ⟨hwithin, by decide, by decide, extendedOther, hother, hkeeps.1⟩

end Ability

end Clearance
