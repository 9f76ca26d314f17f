import Clearance.Proofs.Ability.Extension
import Clearance.Proofs.Condition.Agreement

/-!
# The attributes that rules name

A condition can be written as a filter if it suits the kind of the rule: if the kind has the
attributes that it names. Rules that anybody defines may name what they like, but those that
the program makes are about attributes of their kinds. This file goes through all of them,
the base ability and the four ways to append rules to one, and concludes that the filter of
such an ability can always be written (`Clearance.Ability.exists_filter_of_extendBy`).

Conditions on records come from stored rules. Whatever these say, compiling them yields tests
of the data and of the groups (`Clearance.RuleTree.suits_condition`). The base ability has no
stored rules, and what it says about records it says about all of them
(`Clearance.BaseRules.sparesRecords_all`).
-/

namespace Clearance

open Outcome

/-! ### Conditions -/

namespace Condition

variable {kind : Kind} {parts : List Condition}

theorem suitEach_eq_true_iff :
    suitEach kind parts = true ↔ ∀ part ∈ parts, part.suits kind = true := by
  induction parts with
  | nil => simp [suitEach]
  | cons part rest ih => rw [suitEach, Bool.and_eq_true, ih, List.forall_mem_cons]

/-- A disjunction suits what its parts suit, also if it is its only part. -/
theorem suits_any (h : ∀ part ∈ parts, part.suits kind = true) :
    (Condition.any parts).suits kind = true := by
  have heach := suitEach_eq_true_iff.mpr h
  rcases parts with _ | ⟨part, _ | ⟨other, rest⟩⟩
  · exact heach
  · exact h part (List.mem_singleton_self part)
  · exact heach

/-- Identifiers can be looked for in a column of identifiers. -/
theorem suits_fieldIn_ids {field : String} (hcolumn : kind.column? field = some .id)
    (ids : List Uuid) : (fieldIn field (ids.map .id)).suits kind = true := by
  rw [suits, hcolumn, Option.any_some]
  simp [Column.isScalar, Column.suits]

/-- A column of identifiers can be compared with one that may be missing. -/
theorem suits_fieldEquals_id {field : String} (hcolumn : kind.column? field = some .id)
    (id : Option Uuid) : (fieldEquals field (.ofId id)).suits kind = true := by
  rw [suits, hcolumn, Option.any_some]
  cases id <;> rfl

end Condition

/-! ### Stored rules -/

namespace RuleTree

variable (principal : Principal)

mutual

/-- **What a stored rule compiles to suits records**, whatever the rule says. -/
theorem suits_condition : ∀ tree : RuleTree, (condition principal tree).suits .record = true
  | combine .and parts | combine .or parts => by
    rw [condition, Condition.suits]
    exact suitEach_conditions parts
  | compare category field operator => by
    rw [condition, compareCondition]
    split
    · rfl
    · rfl
  | share named => by
    rw [condition, shareCondition]
    split
    · rfl
    · rfl

theorem suitEach_conditions : ∀ trees : List RuleTree,
    Condition.suitEach .record (conditions principal trees) = true
  | [] => rfl
  | tree :: rest => by
    rw [conditions, Condition.suitEach, suits_condition tree, suitEach_conditions rest]
    rfl

end

end RuleTree

namespace Listing

variable {limit : Int} {grants : List Grant} {type : PermissionType} {principal : Principal}
  {condition : Condition}

/-- **What a list gives** is everything, if it is empty and open or some entry for the principal
has no rule, or what the stored rules of its entries for the principal let through. -/
theorem recordAccess_cases
    (h : recordAccess limit grants type principal = .ok (some condition)) :
    (condition = .everything ∧ ((entries grants type = [] ∧ type.openWhenEmpty = true) ∨
        ∃ grant ∈ entriesOf grants type principal, grant.access = none)) ∨
      ∃ conditions, condition = .any conditions ∧
      ∀ part ∈ conditions, ∃ grant ∈ entriesOf grants type principal, ∃ document tree,
        grant.access = some document ∧ RuleTree.read limit document = .ok tree ∧
        part = tree.condition principal := by
  rw [recordAccess] at h
  split at h
  · next hempty =>
    have hfound := Except.ok.inj h
    split at hfound
    · next hopen =>
      exact .inl ⟨(Option.some.inj hfound).symm, .inl ⟨List.isEmpty_iff.mp hempty, hopen⟩⟩
    · cases hfound
  · obtain ⟨conditions, hconditions, h⟩ := bind_eq_ok.mp h
    have hfound := Except.ok.inj h
    split at hfound
    · next hany =>
      obtain ⟨grant, hgrant, hnone⟩ := List.any_eq_true.mp hany
      exact .inl ⟨(Option.some.inj hfound).symm,
        .inr ⟨grant, hgrant, Option.isNone_iff_eq_none.mp hnone⟩⟩
    · split at hfound
      · cases hfound
      · refine .inr ⟨conditions, (Option.some.inj hfound).symm, fun part hpart => ?_⟩
        obtain ⟨document, hdocument, hpart⟩ := ((mapM_eq_ok hconditions).2 _).mp hpart
        obtain ⟨grant, hgrant, haccess⟩ := List.mem_filterMap.mp hdocument
        rw [entryCondition] at hpart
        split at hpart
        · obtain ⟨tree, htree, rfl⟩ := map_eq_ok.mp hpart
          exact ⟨grant, hgrant, document, tree, haccess, htree, rfl⟩
        · cases hpart

/-- The access that a list gives suits records. -/
theorem suits_recordAccess (h : recordAccess limit grants type principal = .ok (some condition)) :
    condition.suits .record = true := by
  rcases recordAccess_cases h with ⟨rfl, -⟩ | ⟨conditions, rfl, hconditions⟩
  · rfl
  · refine Condition.suits_any fun part hpart => ?_
    obtain ⟨-, -, -, tree, -, -, rfl⟩ := hconditions part hpart
    exact RuleTree.suits_condition principal tree

end Listing

namespace FormRecords

variable {limit : Int} {principal : Principal} {condition : Condition}

/-- The records of a form that meet what suits records. -/
theorem suits_restricted (form : Entity) (h : condition.suits .record = true) :
    (restricted form condition).suits .record = true := by
  have hsubmitted : (submitted form).suits .record = true :=
    Condition.suits_fieldEquals_id (by decide) form.id
  rw [restricted, Condition.suits, Condition.suitEach, Condition.suitEach, hsubmitted, h]
  rfl

/-- **What lists of forms give suits records.** -/
theorem suits_of_gives (h : Gives limit principal condition) : condition.suits .record = true := by
  induction h with
  | listed form type access haccess =>
    exact suits_restricted form (Listing.suits_recordAccess haccess)
  | archived form => exact suits_restricted form (by decide)
  | joint conditions _ ih => exact Condition.suits_any ih

end FormRecords

/-! ### Rules -/

namespace Rule

/-- A rule that **suits its kind**: unless the kind has no stored objects, its condition
does. -/
def SuitsKind (rule : Rule) : Prop :=
  rule.kind ∈ Kind.stored → ∀ condition, rule.condition = some condition →
    condition.suits rule.kind = true

variable {actions : List Action} {kinds : List Kind} {condition : Condition}

/-- A rule that **spares records**: a condition it has is one on objects of another kind, and
suits them. -/
def SparesRecords (rule : Rule) : Prop :=
  ∀ condition, rule.condition = some condition →
    rule.kind ≠ .record ∧ condition.suits rule.kind = true

theorem SparesRecords.suitsKind {rule : Rule} (h : rule.SparesRecords) : rule.SuitsKind :=
  fun _ condition hcondition => (h condition hcondition).2

theorem sparesRecords_allow_none : ∀ rule ∈ allow actions kinds, rule.SparesRecords := by
  intro rule hrule condition hcondition
  obtain ⟨-, -, hnone, -⟩ := mem_each.mp hrule
  simp [hnone] at hcondition

/-- Rules with one condition spare records if none of their kinds is that of records. -/
theorem sparesRecords_allow
    (h : ∀ kind ∈ kinds, kind ≠ .record ∧ condition.suits kind = true) :
    ∀ rule ∈ allow actions kinds (some condition), rule.SparesRecords := by
  intro rule hrule other hother
  obtain ⟨-, hkind, hsome, -⟩ := mem_each.mp hrule
  obtain rfl : condition = other := Option.some.inj (hsome.symm.trans hother)
  exact h rule.kind hkind

end Rule

/-! ### The base ability -/

namespace BaseRules

variable {principal : Principal} {kinds : List Kind}

/-- Role lists are asked about kinds that have them, and records do not. -/
theorem sparesRecords_listed {actions : List Action} {type : PermissionType}
    (h : ∀ kind ∈ kinds, (kind.column? "grants").isSome = true) :
    ∀ rule ∈ Rule.allow actions kinds (listed principal type), rule.SparesRecords := by
  refine Rule.sparesRecords_allow fun kind hkind => ⟨?_, ?_⟩
  · rintro rfl
    exact absurd (h .record hkind) (by decide)
  · rw [Listing.permissionCondition, Condition.suits]
    exact h kind hkind

theorem sparesRecords_byLists (h : ∀ kind ∈ kinds, (kind.column? "grants").isSome = true) :
    ∀ rule ∈ byLists principal kinds, rule.SparesRecords := by
  simp only [byLists, List.forall_mem_append]
  exact ⟨⟨sparesRecords_listed h, sparesRecords_listed h⟩, sparesRecords_listed h⟩

/-- Rules that depend on a flag spare records with it and without. -/
theorem sparesRecords_ite {flag : Bool} {rules others : List Rule}
    (hrules : ∀ rule ∈ rules, rule.SparesRecords) (hothers : ∀ rule ∈ others, rule.SparesRecords) :
    ∀ rule ∈ if flag then rules else others, rule.SparesRecords := by
  cases flag
  · exact hothers
  · exact hrules

theorem sparesRecords_applications : ∀ rule ∈ applications principal, rule.SparesRecords := by
  have hown : ∀ rule ∈ Rule.allow [.read] [.application] (some (ownActive principal)),
      rule.SparesRecords := by
    refine Rule.sparesRecords_allow fun kind hkind => ?_
    obtain rfl := List.mem_singleton.mp hkind
    rw [ownActive, Condition.suits, Condition.suitEach,
      Condition.suits_fieldIn_ids (by decide) principal.applicationIds]
    exact ⟨by decide, rfl⟩
  simp only [applications, List.forall_mem_append]
  refine ⟨⟨sparesRecords_ite Rule.sparesRecords_allow_none ?_,
    sparesRecords_ite Rule.sparesRecords_allow_none (by simp)⟩,
    sparesRecords_ite Rule.sparesRecords_allow_none (sparesRecords_byLists (by decide))⟩
  exact List.forall_mem_append.mpr ⟨hown, sparesRecords_listed (by decide)⟩

/-- The rules about a kind whose records are stored with it. Those about records have no
condition. -/
theorem sparesRecords_withRecords {kind : Kind} {see create manage : GlobalFlag}
    (h : (kind.column? "grants").isSome = true) :
    ∀ rule ∈ withRecords principal kind see create manage, rule.SparesRecords := by
  have hlisted : ∀ other ∈ [kind], (other.column? "grants").isSome = true := by
    intro other hother
    rwa [List.mem_singleton.mp hother]
  simp only [withRecords, List.forall_mem_append]
  refine ⟨⟨sparesRecords_ite Rule.sparesRecords_allow_none (sparesRecords_listed hlisted),
    sparesRecords_ite Rule.sparesRecords_allow_none (by simp)⟩, sparesRecords_ite ?_ ?_⟩
  · exact List.forall_mem_append.mpr
      ⟨Rule.sparesRecords_allow_none, Rule.sparesRecords_allow_none⟩
  · exact List.forall_mem_append.mpr ⟨sparesRecords_listed hlisted, sparesRecords_listed hlisted⟩

theorem sparesRecords_roles : ∀ rule ∈ roles principal, rule.SparesRecords := by
  refine sparesRecords_ite Rule.sparesRecords_allow_none (List.forall_mem_append.mpr ⟨?_, ?_⟩)
  · refine Rule.sparesRecords_allow fun kind hkind => ?_
    rcases List.mem_pair.mp hkind with rfl | rfl
    · exact ⟨by decide, Condition.suits_fieldIn_ids (by decide) _⟩
    · exact ⟨by decide, Condition.suits_fieldIn_ids (by decide) _⟩
  · refine Rule.sparesRecords_allow fun kind hkind => ?_
    obtain rfl := List.mem_singleton.mp hkind
    exact ⟨by decide, Condition.suits_fieldIn_ids (by decide) _⟩

theorem sparesRecords_notifications : ∀ rule ∈ notifications principal, rule.SparesRecords := by
  refine Rule.sparesRecords_allow fun kind hkind => ?_
  obtain rfl := List.mem_singleton.mp hkind
  rw [unseen, Condition.suits, Condition.suitEach,
    Condition.suits_fieldIn_ids (by decide) principal.channelIds]
  exact ⟨by decide, rfl⟩

/-- **The rules of the base ability spare records**: a flag gives all records or none. -/
theorem sparesRecords_all : ∀ rule ∈ all principal, rule.SparesRecords := by
  simp only [all, List.forall_mem_append]
  refine ⟨⟨⟨⟨⟨⟨⟨sparesRecords_applications, sparesRecords_withRecords rfl⟩,
    sparesRecords_withRecords rfl⟩, sparesRecords_roles⟩, ?_⟩, sparesRecords_notifications⟩, ?_⟩,
    ?_⟩
  · exact sparesRecords_ite Rule.sparesRecords_allow_none Rule.sparesRecords_allow_none
  · exact sparesRecords_ite Rule.sparesRecords_allow_none (sparesRecords_byLists (by decide))
  · exact sparesRecords_ite Rule.sparesRecords_allow_none Rule.sparesRecords_allow_none

/-- **They suit their kinds.** -/
theorem suitsKind_all : ∀ rule ∈ all principal, rule.SuitsKind :=
  fun rule hrule => (sparesRecords_all rule hrule).suitsKind

end BaseRules

/-! ### Extended abilities -/

namespace Ability

variable {ability extended : Ability} {principal : Principal}

/-- What is appended suits its kind. -/
theorem suitsKind_of_appends (h : Appends ability extended)
    (hrules : ∀ rule ∈ ability.rules, rule.SuitsKind) :
    ∀ rule ∈ extended.rules, rule.SuitsKind := by
  cases h with
  | loan entity actions _ =>
    refine List.forall_mem_append.mpr ⟨hrules, fun rule hrule => ?_⟩
    obtain ⟨action, -, rfl⟩ := List.mem_map.mp hrule
    intro _ condition hcondition
    obtain rfl := Option.some.inj hcondition
    -- an object is told by its identifier, which all kinds have
    have hid : entity.kind.column? "id" = some .id := by cases entity <;> rfl
    exact Condition.suits_fieldEquals_id hid entity.id
  | creation kind _ =>
    exact List.forall_mem_append.mpr
      ⟨hrules, fun rule hrule => (Rule.sparesRecords_allow_none rule hrule).suitsKind⟩
  | features principal applicationId =>
    refine List.forall_mem_append.mpr ⟨hrules, fun rule hrule _ condition hcondition => ?_⟩
    simp [(mem_featureRules hrule).1] at hcondition
  | records limit principal rules hderived =>
    refine List.forall_mem_append.mpr ⟨hrules, fun rule hrule _ other hother => ?_⟩
    obtain ⟨-, hkind, -, condition, hcondition, hgives⟩ := hderived rule hrule
    obtain rfl : condition = other := Option.some.inj (hcondition.symm.trans hother)
    rw [hkind]
    exact FormRecords.suits_of_gives hgives

theorem suitsKind_of_appendsMany (h : AppendsMany ability extended)
    (hrules : ∀ rule ∈ ability.rules, rule.SuitsKind) :
    ∀ rule ∈ extended.rules, rule.SuitsKind := by
  induction h with
  | refl => exact hrules
  | tail _ hstep ih => exact suitsKind_of_appends hstep ih

/-- **All rules that the program makes suit their kinds**, however an ability is extended. -/
theorem suitsKind_of_extendBy {extensions : List Extension}
    (h : (base principal).extendBy extensions = .ok extended) :
    ∀ rule ∈ extended.rules, rule.SuitsKind :=
  suitsKind_of_appendsMany (appendsMany_of_extendBy h) BaseRules.suitsKind_all

/-! ### Their filters -/

variable {kind : Kind} {action : Action}

/-- A filter goes on to be written with one more rule if its condition suits the kind. -/
theorem exists_foldlM_refine_of_suits {rules : List Rule}
    (h : ∀ rule ∈ rules, ∀ condition, rule.condition = some condition →
      condition.suits kind = true) :
    ∀ filter, ∃ refined, rules.foldlM (refine kind) filter = .ok refined := by
  induction rules with
  | nil => exact fun filter => ⟨filter, rfl⟩
  | cons rule rest ih =>
    obtain ⟨hrule, hrest⟩ := List.forall_mem_cons.mp h
    intro filter
    have hrefine : ∃ refined, refine kind filter rule = .ok refined := by
      cases hcondition : rule.condition with
      | none => exact ⟨_, by rw [refine, hcondition]⟩
      | some condition =>
        obtain ⟨clause, hclause⟩ := Condition.exists_isRendered (hrule condition hcondition)
        simp only [refine, hcondition, hclause.written]
        exact ⟨_, rfl⟩
    obtain ⟨refined, hrefined⟩ := hrefine
    obtain ⟨last, hlast⟩ := ih hrest refined
    refine ⟨last, ?_⟩
    rw [List.foldlM_cons, hrefined]
    exact hlast

variable {extensions : List Extension}

/-- The conditions that are asked about a kind suit it, -/
theorem suits_of_extendBy (h : (base principal).extendBy extensions = .ok extended)
    (hkind : kind ∈ Kind.stored) {rule : Rule} (hrule : rule ∈ extended.rulesFor action kind)
    {condition : Condition} (hcondition : rule.condition = some condition) :
    condition.suits kind = true := by
  obtain ⟨hmem, habout⟩ := List.mem_filter.mp hrule
  obtain rfl : rule.kind = kind := beq_iff_eq.mp (Bool.and_eq_true_iff.mp habout).1
  exact suitsKind_of_extendBy h rule hmem hkind condition hcondition

/-- **so that the filter of such an ability can always be written.** -/
theorem exists_filter_of_extendBy (h : (base principal).extendBy extensions = .ok extended)
    (hkind : kind ∈ Kind.stored) : ∃ filter, extended.filter action kind = .ok filter :=
  exists_foldlM_refine_of_suits
    (fun _ hrule _ hcondition => suits_of_extendBy h hkind hrule hcondition) _

end Ability

end Clearance
