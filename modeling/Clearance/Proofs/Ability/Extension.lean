import Clearance.Ability.Base
import Clearance.Ability.Cascade
import Clearance.Ability.Records
import Clearance.Proofs.Ability.Decision
import Mathlib.Logic.Relation

/-!
# Extensions of abilities

There are eight ways to extend an ability: for a content, a page, a step, a whole
application or workflow, the features of an application, and the records of one form or of
several. `Clearance.Extension` names them with what they are called with, and
`Clearance.Ability.extendBy` makes any number of them in any order.

What all of them do is told by four ways to append rules, `Clearance.Ability.Appends`: the
rules for what was lent to one object, the rule for creating pages or steps, the features
of an application, and rules about records that have been *derived* from the lists of forms
(`Clearance.FormRecords.Derives`). Whatever extends an ability appends in these ways and no
other (`Clearance.Ability.appendsMany_of_extendBy`), so that a property of extended
abilities needs four cases and one induction, and never looks at a walk or a fold again.
-/

namespace Clearance

open Outcome

/-! ### The eight extensions -/

/-- An **extension** of an ability, with what it is called with: the store that is read,
and the bound on the levels of a rule where rules are compiled. -/
inductive Extension
  /-- For a content, through the container given or through all. -/
  | content (store : Store) (entity : Entity) (container : Option Entity)
  /-- For a page, through the application given or through the one it belongs to. -/
  | page (store : Store) (entity : Entity) (owner : Option Entity)
  /-- For a step. -/
  | step (store : Store) (entity : Entity)
  /-- For every page of an application. -/
  | application (store : Store) (entity : Entity)
  /-- For every step of a workflow. -/
  | workflow (store : Store) (entity : Entity)
  /-- For the features of an application. -/
  | features (applicationId : Uuid)
  /-- For the records of a form. -/
  | records (limit : Int) (entity : Entity)
  /-- For the records of several forms. -/
  | forms (limit : Int) (entities : List Entity)

/-- An ability after an extension. -/
def Extension.apply (ability : Ability) : Extension → Except AccessError Ability
  | .content store entity container => ability.extendForContent store entity container
  | .page store entity owner => ability.extendForContainer store entity owner
  | .step store entity => ability.extendForContainer store entity none
  | .application store entity => ability.extendForApplication store entity
  | .workflow store entity => ability.extendForWorkflow store entity
  | .features applicationId => .ok (ability.extendForFeatures applicationId)
  | .records limit entity => ability.extendForRecords limit entity
  | .forms limit entities => (ability.extendForForms limit entities).mapError .rule

namespace Ability

/-- An ability after some extensions, one after the other; the first that fails ends it. -/
def extendBy (ability : Ability) (extensions : List Extension) : Except AccessError Ability :=
  extensions.foldlM Extension.apply ability

end Ability

/-! ### Rules about records -/

namespace FormRecords

/-- The conditions that **lists of forms give** to a principal: records of a form that meet
what its list says, archived records of a form, and such records of several forms. -/
inductive Gives (limit : Int) (principal : Principal) : Condition → Prop
  /-- What a list says. -/
  | listed (form : Entity) (type : PermissionType) (access : Condition)
      (haccess : Listing.recordAccess limit form.grants type principal = .ok (some access)) :
      Gives limit principal (restricted form access)
  /-- That a record is archived. -/
  | archived (form : Entity) :
      Gives limit principal (restricted form (.fieldEquals "archived" (.value (.flag true))))
  /-- What the lists of several forms say. -/
  | joint (conditions : List Condition)
      (hconditions : ∀ condition ∈ conditions, Gives limit principal condition) :
      Gives limit principal (.any conditions)

/-- A rule about records that is **derived** from lists of forms: it is about a proper
action that the ability does not make possible yet. -/
structure Derives (limit : Int) (ability : Ability) (principal : Principal) (rule : Rule) :
    Prop where
  /-- The action is proper. -/
  proper : rule.action ∈ Action.proper
  /-- The kind is that of records. -/
  kind : rule.kind = .record
  /-- The action is not possible yet. -/
  guarded : ability.possible rule.action .record = false
  /-- The condition comes from lists of forms. -/
  condition : ∃ condition, rule.condition = some condition ∧ Gives limit principal condition

variable {limit : Int} {form : Entity} {ability : Ability} {principal : Principal}
  {action : Action} {type : PermissionType} {rules : List Rule}

/-- What is allowed under one condition on records is derived. -/
theorem derives_allow {condition : Condition} (haction : action ∈ Action.proper)
    (hguard : ability.possible action .record = false) (hgives : Gives limit principal condition) :
    ∀ rule ∈ Rule.allow [action] [.record] (some condition),
      Derives limit ability principal rule := by
  intro rule hrule
  obtain ⟨ha, hk, hc, -⟩ := Rule.mem_each.mp hrule
  obtain rfl := List.mem_singleton.mp ha
  exact ⟨haction, List.mem_singleton.mp hk, hguard, condition, hc, hgives⟩

theorem gives_of_access {condition : Condition}
    (h : access limit form principal type = .ok (some condition)) :
    Gives limit principal condition := by
  obtain ⟨found, hfound, hcondition⟩ := map_eq_ok.mp h
  obtain ⟨inner, rfl, rfl⟩ := Option.map_eq_some_iff.mp hcondition
  exact .listed form type inner hfound

theorem derives_of_creationRules (h : creationRules limit form ability principal = .ok rules) :
    ∀ rule ∈ rules, Derives limit ability principal rule := by
  rw [creationRules] at h
  split at h
  · obtain rfl := Except.ok.inj h
    simp
  · next hguard =>
    obtain ⟨found, hfound, rfl⟩ := map_eq_ok.mp h
    cases found with
    | none => simp
    | some condition =>
      dsimp only
      split
      · simp
      · exact derives_allow (by decide) (Bool.eq_false_iff.mpr hguard)
          (.listed form .canCreateRecords condition hfound)

theorem derives_of_readingRules (h : readingRules limit form ability principal = .ok rules) :
    ∀ rule ∈ rules, Derives limit ability principal rule := by
  rw [readingRules] at h
  split at h
  · obtain rfl := Except.ok.inj h
    simp
  · next hguard =>
    obtain ⟨found, hfound, h⟩ := bind_eq_ok.mp h
    cases found with
    | none =>
      obtain rfl := Except.ok.inj h
      simp
    | some condition =>
      obtain ⟨mayUpdate, -, h⟩ := bind_eq_ok.mp h
      obtain rfl := Except.ok.inj h
      have hguard := Bool.eq_false_iff.mpr hguard
      refine List.forall_mem_append.mpr ⟨derives_allow (by decide) hguard
        (gives_of_access (mapError_eq_ok.mp hfound)), ?_⟩
      split
      · simp
      · intro rule hrule
        obtain rfl := List.mem_singleton.mp hrule
        exact ⟨show Action.read ∈ Action.proper by decide, rfl, hguard, _, rfl, .archived form⟩

theorem derives_of_changingRules (haction : action ∈ Action.proper)
    (h : changingRules limit form ability principal action type = .ok rules) :
    ∀ rule ∈ rules, Derives limit ability principal rule := by
  rw [changingRules] at h
  split at h
  · obtain rfl := Except.ok.inj h
    simp
  · next hguard =>
    obtain ⟨found, hfound, rfl⟩ := map_eq_ok.mp h
    cases found with
    | none => simp
    | some condition =>
      exact derives_allow haction (Bool.eq_false_iff.mpr hguard) (gives_of_access hfound)

/-- **The rules about the records of a form are derived.** -/
theorem derives_of_rules (h : FormRecords.rules limit form ability principal = .ok rules) :
    ∀ rule ∈ rules, Derives limit ability principal rule := by
  obtain ⟨creation, hcreation, h⟩ := bind_eq_ok.mp h
  obtain ⟨reading, hreading, h⟩ := bind_eq_ok.mp h
  obtain ⟨updating, hupdating, h⟩ := bind_eq_ok.mp h
  obtain ⟨deleting, hdeleting, h⟩ := bind_eq_ok.mp h
  obtain rfl := Except.ok.inj h
  simp only [List.forall_mem_append]
  exact ⟨⟨⟨derives_of_creationRules (mapError_eq_ok.mp hcreation),
    derives_of_readingRules hreading⟩,
    derives_of_changingRules (by decide) (mapError_eq_ok.mp hupdating)⟩,
    derives_of_changingRules (by decide) (mapError_eq_ok.mp hdeleting)⟩

/-- **The rule about the records of several forms is derived.** -/
theorem derives_of_jointRule {forms : List Entity} (haction : action ∈ Action.proper)
    (h : jointRule limit forms ability principal action type = .ok rules) :
    ∀ rule ∈ rules, Derives limit ability principal rule := by
  rw [jointRule] at h
  split at h
  · obtain rfl := Except.ok.inj h
    simp
  · next hguard =>
    obtain ⟨found, hfound, rfl⟩ := map_eq_ok.mp h
    dsimp only
    split
    · simp
    · refine derives_allow haction (Bool.eq_false_iff.mpr hguard) (.joint _ ?_)
      intro condition hcondition
      obtain ⟨form, -, hform⟩ := ((mapM_eq_ok hfound).2 _).mp (by simpa using hcondition)
      exact gives_of_access hform

end FormRecords

namespace Ability

/-! ### The four ways to append -/

/-- One way to **append rules** to an ability. -/
inductive Appends : Ability → Ability → Prop
  /-- The rules for some actions that were lent to an object. -/
  | loan (ability : Ability) (entity : Entity) (actions : List Action)
      (hlendable : ∀ action ∈ actions, action ∈ Action.lendable) :
      Appends ability (ability.extend (actions.map (ruleForOne entity)))
  /-- The rule for creating pages or steps. -/
  | creation (ability : Ability) (kind : Kind) (hkind : kind = .page ∨ kind = .step) :
      Appends ability (ability.extend (Rule.allow [.create] [kind]))
  /-- The features of an application. -/
  | features (ability : Ability) (principal : Principal) (applicationId : Uuid) :
      Appends ability (ability.extend (featureRules principal applicationId))
  /-- Rules about records that are derived. All of them are derived from the ability as it
  is before any of them is appended. -/
  | records (ability : Ability) (limit : Int) (principal : Principal) (rules : List Rule)
      (hrules : ∀ rule ∈ rules, FormRecords.Derives limit ability principal rule) :
      Appends ability (ability.extend rules)

/-- An ability that has been appended to any number of times. -/
abbrev AppendsMany : Ability → Ability → Prop := Relation.ReflTransGen Appends

/-! ### What the extensions append -/

variable {ability extended : Ability}

/-- The features of an application are allowed without conditions. -/
theorem mem_featureRules {principal : Principal} {applicationId : Uuid} {rule : Rule}
    (h : rule ∈ featureRules principal applicationId) :
    rule.condition = none ∧ rule.inverted = false := by
  obtain ⟨⟨flag, actions, kind⟩, -, hrule⟩ := List.mem_flatMap.mp h
  dsimp only at hrule
  split at hrule
  · exact (Rule.mem_each.mp hrule).2.2
  · simp at hrule

/-- What is **pending** are the lendable actions that the ability does not allow. -/
theorem mem_of_pending {entity : Entity} {actions : List Action}
    (h : ability.pending entity = .ok actions) {action : Action} :
    action ∈ actions ↔ action ∈ Action.lendable ∧ ability.allows action entity = .ok false := by
  rw [(filterM_eq_ok h).2, map_eq_ok]
  simp

/-- What has been lent was pending. -/
theorem mem_of_borrowed {chains : List (List Entity)} {actions : List Action} {action : Action}
    (h : action ∈ (ability.borrowed chains actions).actions) : action ∈ actions := by
  induction actions with
  | nil => simp [borrowed] at h
  | cons first rest ih =>
    rw [borrowed] at h
    split at h
    · simp at h
    · dsimp only at h
      split at h
      · rcases List.mem_cons.mp h with rfl | h
        · exact List.mem_cons_self
        · exact List.mem_cons_of_mem _ (ih h)
      · exact List.mem_cons_of_mem _ (ih h)

/-- What has been lent is appended. -/
theorem appends_of_withLoan {entity : Entity} {chains : List (List Entity)}
    {actions : List Action} (hpending : ability.pending entity = .ok actions)
    (h : ability.withLoan entity (ability.borrowed chains actions) = .ok extended) :
    Appends ability extended := by
  rw [withLoan] at h
  split at h
  · simp at h
  · obtain rfl := by simpa using h
    refine .loan _ _ _ fun action haction => ?_
    exact ((mem_of_pending hpending).mp (mem_of_borrowed haction)).1

theorem appends_of_extendForContent {store : Store} {content : Entity}
    {container : Option Entity}
    (h : ability.extendForContent store content container = .ok extended) :
    Appends ability extended := by
  obtain ⟨⟨actions, walks⟩, hneeded, hloan⟩ := bind_eq_ok.mp h
  obtain ⟨pending, hpending, hwalks⟩ := bind_eq_ok.mp hneeded
  obtain rfl : pending = actions := by
    split at hwalks
    · exact congrArg Prod.fst (Except.ok.inj hwalks)
    · obtain ⟨found, -, hfound⟩ := bind_eq_ok.mp hwalks
      exact congrArg Prod.fst (Except.ok.inj hfound)
  exact appends_of_withLoan (mapError_eq_ok.mp hpending) hloan

theorem appendsMany_of_extendForContainer {store : Store} {entity : Entity}
    {application : Option Entity}
    (h : ability.extendForContainer store entity application = .ok extended) :
    AppendsMany ability extended := by
  obtain ⟨pending, hpending, h⟩ := bind_eq_ok.mp h
  split at h
  · obtain rfl : ability = extended := by simpa [pure, Except.pure] using h
    exact .refl
  · obtain ⟨lenders, -, h⟩ := bind_eq_ok.mp h
    exact .single (appends_of_withLoan (mapError_eq_ok.mp hpending) h)

theorem appendsMany_of_extendForContainers {store : Store} {application : Option Entity}
    {entities : List Entity}
    (h : ability.extendForContainers store application entities = .ok extended) :
    AppendsMany ability extended :=
  foldlM_preserves (P := AppendsMany ability) (fun _ _ _ _ hstate hnext =>
    hstate.trans (appendsMany_of_extendForContainer hnext)) .refl h

theorem appendsMany_of_allowCreating {kind : Kind} {container : Entity}
    (hkind : kind = .page ∨ kind = .step)
    (h : ability.allowCreating kind container = .ok extended) : AppendsMany ability extended := by
  obtain ⟨mayUpdate, -, h⟩ := bind_eq_ok.mp h
  obtain rfl := Except.ok.inj h
  split
  · exact .single (.creation _ _ hkind)
  · exact .refl

theorem appendsMany_of_extendForRecords {limit : Int} {form : Entity}
    (h : ability.extendForRecords limit form = .ok extended) : AppendsMany ability extended := by
  rw [extendForRecords] at h
  split at h
  · obtain rfl : ability = extended := by simpa using h
    exact .refl
  · obtain ⟨rules, hrules, rfl⟩ := map_eq_ok.mp h
    exact .single (.records _ _ _ _ (FormRecords.derives_of_rules hrules))

theorem appendsMany_of_extendForForms {limit : Int} {forms : List Entity}
    (h : ability.extendForForms limit forms = .ok extended) : AppendsMany ability extended := by
  rw [extendForForms] at h
  split at h
  · obtain rfl : ability = extended := by simpa using h
    exact .refl
  · next principal _ =>
    obtain ⟨reading, hreading, h⟩ := bind_eq_ok.mp h
    obtain ⟨updating, hupdating, h⟩ := bind_eq_ok.mp h
    obtain ⟨deleting, hdeleting, h⟩ := bind_eq_ok.mp h
    obtain rfl := Except.ok.inj h
    refine .single (.records _ limit principal _ ?_)
    simp only [List.forall_mem_append]
    exact ⟨⟨FormRecords.derives_of_jointRule (by decide) hreading,
      FormRecords.derives_of_jointRule (by decide) hupdating⟩,
      FormRecords.derives_of_jointRule (by decide) hdeleting⟩

/-- **An extension appends** in the four ways. -/
theorem appendsMany_of_apply {extension : Extension}
    (h : extension.apply ability = .ok extended) : AppendsMany ability extended := by
  cases extension with
  | content store entity container => exact .single (appends_of_extendForContent h)
  | page store entity owner => exact appendsMany_of_extendForContainer h
  | step store entity => exact appendsMany_of_extendForContainer h
  | application store entity =>
    obtain ⟨-, -, h⟩ := bind_eq_ok.mp h
    obtain ⟨paged, hpaged, hcreating⟩ := bind_eq_ok.mp h
    exact (appendsMany_of_extendForContainers hpaged).trans
      (appendsMany_of_allowCreating (.inl rfl) hcreating)
  | workflow store entity =>
    obtain ⟨-, -, h⟩ := bind_eq_ok.mp h
    obtain ⟨stepped, hstepped, hcreating⟩ := bind_eq_ok.mp h
    exact (appendsMany_of_extendForContainers hstepped).trans
      (appendsMany_of_allowCreating (.inr rfl) hcreating)
  | features applicationId =>
    obtain rfl := Except.ok.inj h
    rw [extendForFeatures]
    split
    · exact .refl
    · exact .single (.features _ _ _)
  | records limit entity => exact appendsMany_of_extendForRecords h
  | forms limit entities => exact appendsMany_of_extendForForms (mapError_eq_ok.mp h)

/-- **Any number of extensions append** in the four ways. -/
theorem appendsMany_of_extendBy {extensions : List Extension}
    (h : ability.extendBy extensions = .ok extended) : AppendsMany ability extended :=
  foldlM_preserves (P := AppendsMany ability)
    (fun _ _ _ _ hstate hnext => hstate.trans (appendsMany_of_apply hnext)) .refl h

end Ability

end Clearance
