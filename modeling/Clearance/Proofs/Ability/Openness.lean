import Clearance.Ability.Base
import Clearance.Proofs.Ability.Decision

/-!
# Rules that only allow

What a rule that denies does depends on where it stands. A list of rules without one is asked
in any order: an action is allowed if some rule about it decides, provided that no rule meets a
fault first. Rules that allow and always have an answer are called *open*
(`Clearance.Rule.IsOpen`), and for an ability of open rules `Clearance.Ability.check_of_isOpen`
and `Clearance.Ability.possible_of_isOpen` turn both questions into the existence of a rule.

The base ability is open (`Clearance.BaseRules.isOpen_all`): the columns that its conditions
look into hold identifiers, whatever the object, and no relationship other than the one to the
readers of a notification is followed.
-/

namespace Clearance

open Outcome

namespace Rule

/-! ### Open rules -/

/-- An **open** rule: it allows, and its condition has an answer about every object. -/
structure IsOpen (rule : Rule) : Prop where
  /-- It allows. -/
  allows : rule.inverted = false
  /-- It has an answer. -/
  answers : ∀ entity, ∃ answer, rule.meets entity = .ok answer

variable {rules others : List Rule} {actions : List Action} {kinds : List Kind}
  {condition : Condition} {action : Action} {kind : Kind} {entity : Entity}

theorem isOpen_allow_none : ∀ rule ∈ allow actions kinds, rule.IsOpen := by
  intro rule hrule
  obtain ⟨-, -, hcondition, hallow⟩ := mem_each.mp hrule
  exact ⟨hallow, fun entity => ⟨true, by rw [meets, hcondition]⟩⟩

/-- What is allowed under a condition that always has an answer is open. -/
theorem isOpen_allow (h : ∀ entity, ∃ answer, condition.check entity = .ok answer) :
    ∀ rule ∈ allow actions kinds (some condition), rule.IsOpen := by
  intro rule hrule
  obtain ⟨-, -, hcondition, hallow⟩ := mem_each.mp hrule
  refine ⟨hallow, fun entity => ?_⟩
  rw [meets, hcondition]
  exact h entity

/-- Rules that depend on a flag are open with it and without. -/
theorem isOpen_ite {flag : Bool} (hrules : ∀ rule ∈ rules, rule.IsOpen)
    (hothers : ∀ rule ∈ others, rule.IsOpen) :
    ∀ rule ∈ if flag then rules else others, rule.IsOpen := by
  cases flag
  · exact hothers
  · exact hrules

/-! ### What rules permit -/

/-- Rules **permit** an action on an object, judged as one of a kind, if one that is about the
action decides about the object. -/
def Permit (rules : List Rule) (action : Action) (kind : Kind) (entity : Entity) : Prop :=
  ∃ rule ∈ rules, rule.isAbout action kind = true ∧ rule.meets entity = .ok true

@[simp] theorem permit_nil : ¬ Permit [] action kind entity := by
  simp [Permit]

@[simp] theorem permit_append :
    Permit (rules ++ others) action kind entity ↔
      Permit rules action kind entity ∨ Permit others action kind entity := by
  simp only [Permit, List.mem_append, or_and_right, exists_or]

@[simp] theorem permit_ite {P : Prop} [Decidable P] :
    Permit (if P then rules else others) action kind entity ↔
      P ∧ Permit rules action kind entity ∨ ¬ P ∧ Permit others action kind entity := by
  by_cases h : P <;> simp [h]

/-- A rule is about an action if it names it or `manage`. -/
theorem isAbout_iff {rule : Rule} : rule.isAbout action kind = true ↔
    rule.kind = kind ∧ (rule.action = .manage ∨ rule.action = action) := by
  simp [isAbout, appliesTo]

theorem meets_eq_true_iff {rule : Rule} : rule.meets entity = .ok true ↔
    ∀ condition ∈ rule.condition, condition.check entity = .ok true := by
  rw [meets]
  cases rule.condition <;> simp

/-- What is allowed under a condition is permitted on the objects that meet it; without one, on
all objects of the kinds. -/
@[simp] theorem permit_allow {condition : Option Condition} :
    Permit (allow actions kinds condition) action kind entity ↔
      (kind ∈ kinds ∧ (.manage ∈ actions ∨ action ∈ actions)) ∧
        ∀ part ∈ condition, part.check entity = .ok true := by
  constructor
  · rintro ⟨rule, hrule, habout, hmeets⟩
    obtain ⟨haction, hkind, rfl, -⟩ := mem_each.mp hrule
    refine ⟨?_, meets_eq_true_iff.mp hmeets⟩
    obtain ⟨rfl, hmanage | rfl⟩ := isAbout_iff.mp habout
    · exact ⟨hkind, .inl (hmanage ▸ haction)⟩
    · exact ⟨hkind, .inr haction⟩
  · rintro ⟨⟨hkind, haction⟩, hmeets⟩
    rcases haction with haction | haction
    · exact ⟨{ action := .manage, kind, condition }, mem_each.mpr ⟨haction, hkind, rfl, rfl⟩,
        isAbout_iff.mpr ⟨rfl, .inl rfl⟩, meets_eq_true_iff.mpr hmeets⟩
    · exact ⟨{ action, kind, condition }, mem_each.mpr ⟨haction, hkind, rfl, rfl⟩,
        isAbout_iff.mpr ⟨rfl, .inr rfl⟩, meets_eq_true_iff.mpr hmeets⟩

end Rule

/-! ### Decisions of open rules -/

namespace Ability

variable {ability : Ability} {action : Action} {kind : Kind} {entity : Entity}

/-- **Open rules decide about every object**, and allow what one of them permits. -/
theorem check_of_isOpen (h : ∀ rule ∈ ability.rules, rule.IsOpen) :
    ∃ answer, ability.check action kind entity = .ok answer ∧
      (answer = true ↔ Rule.Permit ability.rules action kind entity) := by
  have hopen : ∀ rule ∈ (ability.rulesFor action kind).reverse, rule.IsOpen :=
    fun rule hrule => h rule (mem_rulesFor.mp (List.mem_reverse.mp hrule)).1
  rw [check]
  rcases hfirst : Rule.firstDeciding entity (ability.rulesFor action kind).reverse with
    fault | _ | rule
  · -- a fault would be that of one of the rules
    obtain ⟨rule, hrule, hfault⟩ := Rule.exists_of_firstDeciding_eq_error hfirst
    obtain ⟨answer, hanswer⟩ := (hopen rule hrule).answers entity
    rw [hanswer] at hfault
    cases hfault
  · refine ⟨false, rfl, iff_of_false (by simp) ?_⟩
    rintro ⟨rule, hrule, habout, hmeets⟩
    have hdeclines := Rule.firstDeciding_eq_none_iff.mp hfirst rule
      (List.mem_reverse.mpr (mem_rulesFor.mpr ⟨hrule, habout⟩))
    rw [hmeets] at hdeclines
    cases hdeclines
  · obtain ⟨earlier, later, hrules, -, hmeets⟩ := Rule.firstDeciding_eq_some_iff.mp hfirst
    have hrule : rule ∈ (ability.rulesFor action kind).reverse := by
      rw [hrules]
      simp
    refine ⟨true, ?_, iff_of_true rfl ⟨rule, ?_, ?_, hmeets⟩⟩
    · simp [Except.map, Rule.verdict, (hopen rule hrule).allows]
    · exact (mem_rulesFor.mp (List.mem_reverse.mp hrule)).1
    · exact (mem_rulesFor.mp (List.mem_reverse.mp hrule)).2

/-- They make possible what one of them is about. -/
theorem possible_of_isOpen (h : ∀ rule ∈ ability.rules, rule.IsOpen) :
    ability.possible action kind = true ↔ ∃ rule ∈ ability.rules, rule.isAbout action kind := by
  rw [possible_eq_true_iff]
  constructor
  · rintro ⟨earlier, rule, later, hrules, -, -⟩
    exact ⟨rule, mem_rulesFor.mp (by rw [hrules]; simp)⟩
  · rintro ⟨rule, hrule⟩
    have hmem := mem_rulesFor.mpr hrule
    rcases List.eq_nil_or_concat (ability.rulesFor action kind) with hnil | ⟨earlier, last, hlast⟩
    · rw [hnil] at hmem
      cases hmem
    · have hmem : last ∈ ability.rulesFor action kind := by
        rw [hlast]
        simp
      exact ⟨earlier, last, [], by simpa using hlast, (h last (mem_rulesFor.mp hmem).1).allows,
        by simp⟩

end Ability

/-! ### The base ability -/

/-- A column of identifiers has nothing that cannot be looked for in a set. -/
theorem Entity.cellFault?_cell {name : String}
    (h : name = "id" ∨ name = "application_id" ∨ name = "channel_id") (entity : Entity) :
    Condition.cellFault? (entity.cell name) = none := by
  have hid : ∀ id : Option Uuid, Condition.cellFault? (Cell.ofId id) = none := by
    intro id
    cases id <;> rfl
  rcases h with rfl | rfl | rfl <;> cases entity <;> first | rfl | exact hid _

namespace BaseRules

variable {principal : Principal} {actions : List Action} {kinds : List Kind}

theorem isOpen_listed {type : PermissionType} :
    ∀ rule ∈ Rule.allow actions kinds (listed principal type), rule.IsOpen :=
  Rule.isOpen_allow fun _ => ⟨_, rfl⟩

theorem isOpen_byLists : ∀ rule ∈ byLists principal kinds, rule.IsOpen := by
  simp only [byLists, List.forall_mem_append]
  exact ⟨⟨isOpen_listed, isOpen_listed⟩, isOpen_listed⟩

theorem check_fieldIn {name : String}
    (h : name = "id" ∨ name = "application_id" ∨ name = "channel_id") (operands : List Operand)
    (entity : Entity) : (Condition.fieldIn name operands).check entity =
      .ok (operands.any (entity.cell name).equals) := by
  rw [Condition.check, Entity.cellFault?_cell h, Condition.unlessFault]

theorem exists_check_ownActive (entity : Entity) :
    ∃ answer, (ownActive principal).check entity = .ok answer := by
  simp only [ownActive, Condition.check, Condition.checkAll, Entity.cellFault?_cell (.inl rfl),
    Condition.unlessFault]
  rcases (principal.applicationIds.map Operand.id).any (entity.cell "id").equals with _ | _
  · exact ⟨_, rfl⟩
  · rcases (entity.cell "status").equals (.value (.text activeStatus)) with _ | _ <;>
      exact ⟨_, rfl⟩

/-- The readers of a notification are looked for by their identifiers, and no other object has
any. -/
theorem exists_check_unseen (entity : Entity) :
    ∃ answer, (unseen principal).check entity = .ok answer := by
  have hseen : Condition.relationFault? (entity.cell "seen_by") = none := by
    cases entity <;> rfl
  simp only [unseen, Condition.check, Condition.checkAll, hseen,
    Entity.cellFault?_cell (.inr (.inr rfl)), Condition.unlessFault]
  rcases (principal.channelIds.map Operand.id).any (entity.cell "channel_id").equals with _ | _
  · exact ⟨_, rfl⟩
  · rcases Condition.cellRelated [principal.userId] (entity.cell "seen_by") with _ | _ <;>
      exact ⟨_, rfl⟩

theorem isOpen_applications : ∀ rule ∈ applications principal, rule.IsOpen := by
  simp only [applications, List.forall_mem_append]
  refine ⟨⟨Rule.isOpen_ite Rule.isOpen_allow_none ?_, Rule.isOpen_ite Rule.isOpen_allow_none
    (by simp)⟩, Rule.isOpen_ite Rule.isOpen_allow_none isOpen_byLists⟩
  exact List.forall_mem_append.mpr ⟨Rule.isOpen_allow exists_check_ownActive, isOpen_listed⟩

theorem isOpen_withRecords {kind : Kind} {see create manage : GlobalFlag} :
    ∀ rule ∈ withRecords principal kind see create manage, rule.IsOpen := by
  simp only [withRecords, List.forall_mem_append]
  refine ⟨⟨Rule.isOpen_ite Rule.isOpen_allow_none isOpen_listed,
    Rule.isOpen_ite Rule.isOpen_allow_none (by simp)⟩, Rule.isOpen_ite ?_ ?_⟩
  · exact List.forall_mem_append.mpr ⟨Rule.isOpen_allow_none, Rule.isOpen_allow_none⟩
  · exact List.forall_mem_append.mpr ⟨isOpen_listed, isOpen_listed⟩

theorem isOpen_roles : ∀ rule ∈ roles principal, rule.IsOpen := by
  refine Rule.isOpen_ite Rule.isOpen_allow_none (List.forall_mem_append.mpr ⟨?_, ?_⟩)
  · exact Rule.isOpen_allow fun entity => ⟨_, check_fieldIn (.inr (.inl rfl)) _ entity⟩
  · exact Rule.isOpen_allow fun entity => ⟨_, check_fieldIn (.inl rfl) _ entity⟩

/-- **The rules of the base ability are open.** -/
theorem isOpen_all : ∀ rule ∈ all principal, rule.IsOpen := by
  simp only [all, List.forall_mem_append]
  refine ⟨⟨⟨⟨⟨⟨⟨isOpen_applications, isOpen_withRecords⟩, isOpen_withRecords⟩, isOpen_roles⟩, ?_⟩,
    Rule.isOpen_allow exists_check_unseen⟩, ?_⟩, ?_⟩
  · exact Rule.isOpen_ite Rule.isOpen_allow_none Rule.isOpen_allow_none
  · exact Rule.isOpen_ite Rule.isOpen_allow_none isOpen_byLists
  · exact Rule.isOpen_ite Rule.isOpen_allow_none Rule.isOpen_allow_none

end BaseRules

namespace Ability

variable {principal : Principal} {action : Action} {kind : Kind} {entity : Entity}

/-- **The base ability** has an answer about every object, and allows what one of its rules
permits. -/
theorem check_base : ∃ answer, (base principal).check action kind entity = .ok answer ∧
    (answer = true ↔ Rule.Permit (BaseRules.all principal) action kind entity) :=
  check_of_isOpen BaseRules.isOpen_all

theorem check_base_eq_true_iff : (base principal).check action kind entity = .ok true ↔
    Rule.Permit (BaseRules.all principal) action kind entity := by
  obtain ⟨answer, hanswer, hpermit⟩ :
      ∃ answer, (base principal).check action kind entity = .ok answer ∧
        (answer = true ↔ Rule.Permit (BaseRules.all principal) action kind entity) := check_base
  rw [hanswer, ← hpermit, Except.ok.injEq]

theorem exists_check_base : ∃ answer, (base principal).check action kind entity = .ok answer := by
  obtain ⟨answer, hanswer, -⟩ : ∃ answer, (base principal).check action kind entity = .ok answer ∧
      (answer = true ↔ Rule.Permit (BaseRules.all principal) action kind entity) := check_base
  exact ⟨answer, hanswer⟩

theorem allows_base_ne_error {fault : Fault} :
    (base principal).allows action entity ≠ .error fault := by
  obtain ⟨answer, hanswer⟩ :
      ∃ answer, (base principal).check action entity.kind entity = .ok answer := exists_check_base
  intro herror
  rw [allows, hanswer] at herror
  cases herror

end Ability

end Clearance
