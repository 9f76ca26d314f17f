import Clearance.Proofs.Ability.Separation
import Mathlib.Data.List.Nodup

/-!
# Several forms at once

For one form an ability gets a rule for each way of changing records, and for several forms at
once a single rule that joins what their lists give. The two are made apart, and could come
apart: forms whose list gives nothing are left out, a condition that stands alone is not
wrapped, and the parts of the others are tried in the order of the forms, which a fault among
them would end. On the records of one of the forms they decide alike all the same, and the order
of the forms does not matter (`Clearance.Ability.extendForForms_joins`).

What carries this is that every part of the joint condition is restricted to the form that
*contributes* it (`Clearance.FormRecords.Contributes`). Forms have different identifiers, so
that on a record all parts decline but the one of its own form, and the search through the parts
gives the answer of that one, wherever it stands (`Clearance.Condition.checkAny_eq`). The rule of
a form alone joins the one form (`Clearance.FormRecords.Adds.joins`).

With forms that show their records the two extensions differ, as only that for one form hides
what is archived.
-/

namespace Clearance

open Outcome

namespace Condition

variable {entity : Entity} {parts : List Condition} {answer : Except Fault Bool}

/-- A single part is tried like any other. -/
theorem check_any : (Condition.any parts).check entity = checkAny entity parts := by
  rcases parts with _ | ⟨part, _ | ⟨other, rest⟩⟩
  · rfl
  · rw [any, checkAny]
    rcases part.check entity with fault | _ | _ <;> rfl
  · rfl

/-- **If all parts but some with the same answer decline**, that is the answer. -/
theorem checkAny_eq (hfound : answer = .ok false ∨ ∃ part ∈ parts, part.check entity = answer)
    (h : ∀ part ∈ parts, part.check entity = .ok false ∨ part.check entity = answer) :
    checkAny entity parts = answer := by
  induction parts with
  | nil => exact (hfound.resolve_right fun ⟨_, hmem, _⟩ => List.not_mem_nil hmem).symm
  | cons part rest ih =>
    obtain ⟨hpart, hrest⟩ := List.forall_mem_cons.mp h
    rw [checkAny]
    by_cases hdeclines : part.check entity = .ok false
    · rw [hdeclines]
      refine ih ?_ hrest
      rcases hfound with hfalse | ⟨found, hmem, hfound⟩
      · exact .inl hfalse
      · rcases List.mem_cons.mp hmem with rfl | hmem
        · exact .inl (hfound.symm.trans hdeclines)
        · exact .inr ⟨found, hmem, hfound⟩
    · obtain rfl := hpart.resolve_left hdeclines
      rcases hanswer : part.check entity with fault | _ | _
      · rfl
      · exact absurd hanswer hdeclines
      · rfl

end Condition

namespace FormRecords

variable {limit : Int} {form : Entity} {forms others : List Entity} {ability : Ability}
  {principal : Principal} {action : Action} {type : PermissionType} {rules added : List Rule}
  {condition : Condition} {record : Record}

/-! ### Contributions -/

/-- A form **contributes** a condition to the rule about an action on records: the action is not
possible on records anyway, and the list of the form gives the condition, restricted to the
form. -/
structure Contributes (limit : Int) (ability : Ability) (principal : Principal) (action : Action)
    (form : Entity) (condition : Condition) : Prop where
  /-- The action is not possible anyway. -/
  closed : ability.possible action .record = false
  /-- The list gives the condition. -/
  listed : ∃ type access, recordType? action = some type ∧
    Listing.recordAccess limit form.grants type principal = .ok (some access) ∧
    condition = restricted form access

/-- It contributes one condition at most, -/
theorem Contributes.unique {other : Condition}
    (h : Contributes limit ability principal action form condition)
    (hother : Contributes limit ability principal action form other) : other = condition := by
  obtain ⟨type, access, htype, haccess, rfl⟩ := h.listed
  obtain ⟨otherType, otherAccess, hotherType, hotherAccess, rfl⟩ := hother.listed
  obtain rfl := Option.some.inj (htype.symm.trans hotherType)
  obtain rfl := Option.some.inj (Except.ok.inj (haccess.symm.trans hotherAccess))
  rfl

/-- which declines on the records of other forms. -/
theorem Contributes.declines (h : Contributes limit ability principal action form condition)
    (hother : record.formId ≠ form.id) : condition.check (.record record) = .ok false := by
  obtain ⟨type, access, -, -, rfl⟩ := h.listed
  have hsubmission : isSubmission form record = false := by simp [isSubmission, hother]
  rw [check_restricted, hsubmission, if_neg Bool.false_ne_true]

/-- The rules about an action that **join** what some forms contribute: one, if they contribute
anything. -/
def Joins (limit : Int) (ability : Ability) (principal : Principal) (action : Action)
    (forms : List Entity) (rules : List Rule) : Prop :=
  ∃ conditions,
    (∀ condition, condition ∈ conditions ↔
      ∃ form ∈ forms, Contributes limit ability principal action form condition) ∧
    rules = if conditions.isEmpty then []
      else Rule.allow [action] [.record] (some (.any conditions))

/-- No rules join what no form contributes. -/
theorem joins_nil
    (h : ∀ form ∈ forms, ∀ condition, ¬ Contributes limit ability principal action form condition) :
    Joins limit ability principal action forms [] := by
  refine ⟨[], fun condition => ?_, rfl⟩
  simpa using fun form hform => h form hform condition

/-- **The rule about several forms joins what they contribute**, -/
theorem joins_of_jointRule (htype : recordType? action = some type)
    (h : jointRule limit forms ability principal action type = .ok rules) :
    Joins limit ability principal action forms rules := by
  rcases jointRule_cases h with ⟨hpossible, rfl⟩ | ⟨hclosed, conditions, hconditions, rfl⟩
  · exact joins_nil fun form _ condition hcontributes =>
      Bool.noConfusion (hpossible.symm.trans hcontributes.closed)
  · refine ⟨conditions, fun condition => ?_, rfl⟩
    rw [hconditions]
    refine exists_congr fun form => and_congr_right fun _ => ⟨?_, fun hcontributes => ?_⟩
    · rintro ⟨access, haccess, rfl⟩
      exact ⟨hclosed, type, access, htype, haccess, rfl⟩
    · obtain ⟨other, access, hother, haccess, rfl⟩ := hcontributes.listed
      obtain rfl := Option.some.inj (htype.symm.trans hother)
      exact ⟨access, haccess, rfl⟩

/-- **and that of one form for changing its records** joins that form. -/
theorem Adds.joins (h : Adds limit form ability principal action rules)
    (haction : action = .update ∨ action = .delete) :
    Joins limit ability principal action [form] rules := by
  have hlist : listFor? action = recordType? action := by
    rcases haction with rfl | rfl <;> rfl
  have hnot : action ≠ .create ∧ action ≠ .read := by
    rcases haction with rfl | rfl <;> decide
  cases h with
  | possible hpossible =>
    exact joins_nil fun form _ condition hcontributes =>
      Bool.noConfusion (hpossible.symm.trans hcontributes.closed)
  | closed _ hclosed =>
    refine joins_nil fun other hother condition hcontributes => ?_
    obtain rfl := List.mem_singleton.mp hother
    obtain ⟨type, access, htype, haccess, -⟩ := hcontributes.listed
    exact not_opens hclosed access
      ⟨⟨type, hlist.trans htype, haccess⟩, fun hcreate => absurd hcreate hnot.1⟩
  | opened access hclosed hopens _ =>
    obtain ⟨type, htype, haccess⟩ := hopens.given
    have hcontributes : Contributes limit ability principal action form (restricted form access) :=
      ⟨hclosed, type, access, hlist.symm.trans htype, haccess, rfl⟩
    refine ⟨[restricted form access], fun condition => ?_, rfl⟩
    simp only [List.mem_singleton, exists_eq_left]
    exact ⟨fun heq => heq ▸ hcontributes, fun hother => hcontributes.unique hother⟩
  | hidden _ _ _ hread _ => exact absurd hread hnot.2

/-- The joint rule for forms in another order is there if it is for the forms. -/
theorem exists_jointRule_of_perm (hperm : forms.Perm others)
    (h : jointRule limit forms ability principal action type = .ok rules) :
    ∃ rules, jointRule limit others ability principal action type = .ok rules := by
  rw [jointRule] at h ⊢
  split at h
  · next hpossible => exact ⟨[], if_pos hpossible⟩
  · next hpossible =>
    obtain ⟨found, hfound, -⟩ := map_eq_ok.mp h
    obtain ⟨others, hothers⟩ := exists_mapM fun form hform =>
      (mapM_eq_ok hfound).1 form (hperm.mem_iff.mpr hform)
    rw [if_neg hpossible, hothers]
    exact ⟨_, rfl⟩

/-! ### What joined rules decide -/

/-- Joined rules give the answer of the parts, tried one after the other. -/
theorem allows_any {conditions : List Condition}
    (hadded : added.filter (Rule.isAbout action .record) = if conditions.isEmpty then []
      else Rule.allow [action] [.record] (some (.any conditions))) :
    (ability.extend added).allows action (.record record) =
      Ability.askedFirst (Condition.checkAny (.record record) conditions)
        (ability.allows action (.record record)) := by
  cases conditions with
  | nil => rw [Ability.allows, Entity.kind, Ability.check_extend, hadded]; rfl
  | cons first rest => rw [Ability.allows_allow hadded, Condition.check_any]

/-- **On a record of none of the forms** joined rules change nothing, -/
theorem Joins.allows_others
    (h : Joins limit ability principal action forms (added.filter (Rule.isAbout action .record)))
    (hothers : ∀ form ∈ forms, record.formId ≠ form.id) :
    (ability.extend added).allows action (.record record) =
      ability.allows action (.record record) := by
  obtain ⟨conditions, hconditions, hadded⟩ := h
  have hdeclines : Condition.checkAny (.record record) conditions = .ok false := by
    refine Condition.checkAny_eq (.inl rfl) fun condition hcondition => .inl ?_
    obtain ⟨form, hform, hcontributes⟩ := (hconditions condition).mp hcondition
    exact hcontributes.declines (hothers form hform)
  rw [allows_any hadded, hdeclines, Ability.askedFirst_false]

/-- The **answer of a form** about a record of it: that of the condition it contributes, or that
the record is not accepted if it contributes none. -/
structure Answers (limit : Int) (ability : Ability) (principal : Principal) (action : Action)
    (form : Entity) (record : Record) (answer : Except Fault Bool) : Prop where
  /-- What is contributed gives the answer. -/
  contributed : ∀ condition, Contributes limit ability principal action form condition →
    condition.check (.record record) = answer
  /-- Something is contributed if the answer is not to decline. -/
  found : answer = .ok false ∨ ∃ condition,
    Contributes limit ability principal action form condition ∧
      condition.check (.record record) = answer

theorem exists_answers : ∃ answer, Answers limit ability principal action form record answer := by
  by_cases hcontributes : ∃ condition, Contributes limit ability principal action form condition
  · obtain ⟨condition, hcontributes⟩ := hcontributes
    exact ⟨_, fun other hother => congrArg _ (hcontributes.unique hother),
      .inr ⟨condition, hcontributes, rfl⟩⟩
  · exact ⟨.ok false, fun condition hother => absurd ⟨condition, hother⟩ hcontributes, .inl rfl⟩

/-- **and on a record of one of them** they give the answer of that form. -/
theorem Joins.allows_own
    (h : Joins limit ability principal action forms (added.filter (Rule.isAbout action .record)))
    (hforms : (forms.map Entity.id).Nodup) (hform : form ∈ forms)
    (hrecord : record.formId = form.id) {answer : Except Fault Bool}
    (hanswer : Answers limit ability principal action form record answer) :
    (ability.extend added).allows action (.record record) =
      Ability.askedFirst answer (ability.allows action (.record record)) := by
  obtain ⟨conditions, hconditions, hadded⟩ := h
  have hany : Condition.checkAny (.record record) conditions = answer := by
    refine Condition.checkAny_eq (hanswer.found.imp_right ?_) fun part hpart => ?_
    · rintro ⟨condition, hcontributes, hcheck⟩
      exact ⟨condition, (hconditions condition).mpr ⟨form, hform, hcontributes⟩, hcheck⟩
    · obtain ⟨other, hother, hpart⟩ := (hconditions part).mp hpart
      by_cases hsame : other.id = form.id
      · obtain rfl := List.inj_on_of_nodup_map hforms hother hform hsame
        exact .inr (hanswer.contributed part hpart)
      · exact .inl (hpart.declines fun heq => hsame (heq.symm.trans hrecord))
  rw [allows_any hadded, hany]

/-- They make their action possible on records if a form contributes anything. -/
theorem Joins.possible_iff
    (h : Joins limit ability principal action forms (added.filter (Rule.isAbout action .record))) :
    (ability.extend added).possible action .record = true ↔
      ability.possible action .record = true ∨
        ∃ form ∈ forms, ∃ condition, Contributes limit ability principal action form condition := by
  obtain ⟨conditions, hconditions, hadded⟩ := h
  rw [Ability.possible_extend, hadded]
  cases conditions with
  | nil =>
    refine (or_iff_left ?_).symm
    rintro ⟨form, hform, condition, hcontributes⟩
    exact List.not_mem_nil ((hconditions condition).mpr ⟨form, hform, hcontributes⟩)
  | cons first rest =>
    obtain ⟨form, hform, hcontributes⟩ := (hconditions first).mp List.mem_cons_self
    refine iff_of_true ?_ (.inr ⟨form, hform, first, hcontributes⟩)
    simp [Rule.allow, Rule.each, Rule.decidesKind]

end FormRecords

namespace Ability

open FormRecords

variable {limit : Int} {form : Entity} {forms others : List Entity}
  {ability extended joint single : Ability} {principal : Principal} {action : Action}
  {record : Record}

/-- **What is added for several forms**, and what of it is about one action. -/
theorem exists_joins (hprincipal : ability.principal = some principal)
    (h : ability.extendForForms limit forms = .ok joint) :
    ∃ added, joint = ability.extend added ∧ (∀ rule ∈ added, rule.kind = .record) ∧
      ∀ action, Joins limit ability principal action forms
        (added.filter (Rule.isAbout action .record)) := by
  obtain ⟨added, rfl, hadded, habout⟩ := exists_joiningRules hprincipal h
  refine ⟨added, rfl, fun rule hrule => (hadded rule hrule).1, fun action => ?_⟩
  have hrules := habout action
  rw [joiningRules] at hrules
  split at hrules
  · next type htype => exact joins_of_jointRule htype hrules
  · next hnone =>
    rw [← Except.ok.inj hrules]
    refine joins_nil fun form _ condition hcontributes => ?_
    obtain ⟨type, -, htype, -⟩ := hcontributes.listed
    cases hnone.symm.trans htype

/-- Forms in another order can be extended for as well. -/
theorem exists_extendForForms_of_perm (hperm : forms.Perm others)
    (h : ability.extendForForms limit forms = .ok joint) :
    ∃ extended, ability.extendForForms limit others = .ok extended := by
  rw [extendForForms] at h ⊢
  split at h
  · exact ⟨ability, rfl⟩
  · obtain ⟨reading, hreading, h⟩ := bind_eq_ok.mp h
    obtain ⟨updating, hupdating, h⟩ := bind_eq_ok.mp h
    obtain ⟨deleting, hdeleting, h⟩ := bind_eq_ok.mp h
    obtain ⟨reading, hreading⟩ := exists_jointRule_of_perm hperm hreading
    obtain ⟨updating, hupdating⟩ := exists_jointRule_of_perm hperm hupdating
    obtain ⟨deleting, hdeleting⟩ := exists_jointRule_of_perm hperm hdeleting
    simp only [hreading, hupdating, hdeleting]
    exact ⟨_, rfl⟩

/-! ### Decisions -/

/-- **On the records of a form**, several forms at once decide about changes as the form alone. -/
theorem allows_extendForForms_eq (hforms : (forms.map Entity.id).Nodup) (hform : form ∈ forms)
    (hprincipal : ability.principal = some principal)
    (hjoint : ability.extendForForms limit forms = .ok joint)
    (hsingle : ability.extendForRecords limit form = .ok single)
    (haction : action = .update ∨ action = .delete) (hrecord : record.formId = form.id) :
    joint.allows action (.record record) = single.allows action (.record record) := by
  obtain ⟨added, rfl, -, hjoins⟩ := exists_joins hprincipal hjoint
  obtain ⟨alone, rfl, -, habout⟩ := exists_adds hprincipal hsingle
  obtain ⟨rules, hrules, hfilter⟩ := habout action
  obtain ⟨answer, hanswer⟩ : ∃ answer, Answers limit ability principal action form record answer :=
    exists_answers
  have hown : Joins limit ability principal action [form]
      (alone.filter (Rule.isAbout action .record)) := by
    rw [hfilter]
    exact (adds_of_openingRules hrules).joins haction
  rw [(hjoins action).allows_own hforms hform hrecord hanswer,
    hown.allows_own (List.nodup_singleton _) (List.mem_singleton_self form) hrecord hanswer]

/-- **On the records of no form** among them they decide as before. -/
theorem allows_extendForForms_of_ne (hprincipal : ability.principal = some principal)
    (hjoint : ability.extendForForms limit forms = .ok joint)
    (hothers : ∀ form ∈ forms, record.formId ≠ form.id) :
    joint.allows action (.record record) = ability.allows action (.record record) := by
  obtain ⟨added, rfl, -, hjoins⟩ := exists_joins hprincipal hjoint
  exact (hjoins action).allows_others hothers

/-- **The order of the forms** shows in no decision, -/
theorem allows_extendForForms_of_perm (hforms : (forms.map Entity.id).Nodup)
    (hperm : forms.Perm others) (hprincipal : ability.principal = some principal)
    (h : ability.extendForForms limit forms = .ok joint)
    (hother : ability.extendForForms limit others = .ok extended) (entity : Entity) :
    extended.allows action entity = joint.allows action entity := by
  obtain ⟨added, rfl, hkinds, hjoins⟩ := exists_joins hprincipal h
  obtain ⟨otherAdded, rfl, hotherKinds, hotherJoins⟩ := exists_joins hprincipal hother
  by_cases hkind : entity.kind = .record
  · obtain ⟨record, rfl⟩ : ∃ record, entity = .record record := by
      cases entity <;> first | exact ⟨_, rfl⟩ | cases hkind
    by_cases hown : ∃ form ∈ forms, record.formId = form.id
    · obtain ⟨form, hform, hrecord⟩ := hown
      obtain ⟨answer, hanswer⟩ : ∃ answer,
          Answers limit ability principal action form record answer := exists_answers
      rw [(hjoins action).allows_own hforms hform hrecord hanswer,
        (hotherJoins action).allows_own ((hperm.map Entity.id).nodup_iff.mp hforms)
          (hperm.mem_iff.mp hform) hrecord hanswer]
    · have hothers : ∀ form ∈ forms, record.formId ≠ form.id :=
        fun form hform hrecord => hown ⟨form, hform, hrecord⟩
      rw [(hjoins action).allows_others hothers, (hotherJoins action).allows_others
        fun form hform => hothers form (hperm.mem_iff.mpr hform)]
  · rw [allows, allows, check_extend_of_not_about (isAbout_eq_false_of_record hkinds hkind),
      check_extend_of_not_about (isAbout_eq_false_of_record hotherKinds hkind)]

/-- nor in what is possible. -/
theorem possible_extendForForms_of_perm (hperm : forms.Perm others)
    (hprincipal : ability.principal = some principal)
    (h : ability.extendForForms limit forms = .ok joint)
    (hother : ability.extendForForms limit others = .ok extended) (kind : Kind) :
    extended.possible action kind = joint.possible action kind := by
  obtain ⟨added, rfl, hkinds, hjoins⟩ := exists_joins hprincipal h
  obtain ⟨otherAdded, rfl, hotherKinds, hotherJoins⟩ := exists_joins hprincipal hother
  by_cases hkind : kind = .record
  · subst hkind
    rw [Bool.eq_iff_iff, (hjoins action).possible_iff, (hotherJoins action).possible_iff]
    simp only [hperm.mem_iff]
  · rw [possible_extend_of_not_about (isAbout_eq_false_of_record hkinds hkind),
      possible_extend_of_not_about (isAbout_eq_false_of_record hotherKinds hkind)]

/-- **Several forms are joined.** Let an ability be extended for some forms that have different
identifiers. Whether a record of one of them may be updated or deleted is then decided as if the
ability had been extended for that form alone, with the same faults; about records of none of
the forms nothing has changed. With the forms in another order the extension succeeds, too, and
makes no difference to what is allowed on an object or possible on a kind. -/
theorem extendForForms_joins (hforms : (forms.map Entity.id).Nodup)
    (hjoint : ability.extendForForms limit forms = .ok joint) :
    (∀ form ∈ forms, ∀ single, ability.extendForRecords limit form = .ok single →
      ∀ action, action = .update ∨ action = .delete → ∀ record : Record,
        record.formId = form.id →
          joint.allows action (.record record) = single.allows action (.record record)) ∧
    (∀ record : Record, (∀ form ∈ forms, record.formId ≠ form.id) → ∀ action,
      joint.allows action (.record record) = ability.allows action (.record record)) ∧
    ∀ others, forms.Perm others → ∃ extended, ability.extendForForms limit others = .ok extended ∧
      extended.principal = joint.principal ∧
      (∀ action entity, extended.allows action entity = joint.allows action entity) ∧
      ∀ action kind, extended.possible action kind = joint.possible action kind := by
  cases hprincipal : ability.principal with
  | none =>
    -- nobody is given anything
    have hkeeps : ∀ forms, ability.extendForForms limit forms = .ok ability := by
      intro forms
      rw [extendForForms, hprincipal]
    obtain rfl := Except.ok.inj ((hkeeps forms).symm.trans hjoint)
    refine ⟨fun form _ single hsingle _ _ _ _ => ?_, fun _ _ _ => rfl,
      fun others _ => ⟨ability, hkeeps others, rfl, fun _ _ => rfl, fun _ _ => rfl⟩⟩
    rw [extendForRecords, hprincipal] at hsingle
    rw [Except.ok.inj hsingle]
  | some principal =>
    refine ⟨fun form hform single hsingle action haction record hrecord => ?_,
      fun record hothers action => ?_, fun others hperm => ?_⟩
    · exact allows_extendForForms_eq hforms hform hprincipal hjoint hsingle haction hrecord
    · exact allows_extendForForms_of_ne hprincipal hjoint hothers
    · obtain ⟨extended, hextended⟩ := exists_extendForForms_of_perm hperm hjoint
      have hkept := (grows_of_appendsMany (appendsMany_of_extendForForms hextended)).principal
      have hjointKept := (grows_of_appendsMany (appendsMany_of_extendForForms hjoint)).principal
      exact ⟨extended, hextended, hkept.trans hjointKept.symm,
        fun action => allows_extendForForms_of_perm hforms hperm hprincipal hjoint hextended,
        fun action => possible_extendForForms_of_perm hperm hprincipal hjoint hextended⟩

/-- Of two forms one lets its records be updated and the other lets them be deleted. In either
order the records of the first may be updated, and those of no form may not. -/
theorem extendForForms_joins_two :
    let principal : Principal := { userId := 1, roles := [{ id := 2 }] }
    let first := formListing 3 [.canUpdateRecords]
    let second := formListing 4 [.canDeleteRecords]
    ∃ joint swapped,
      (base principal).extendForForms 32 [first, second] = .ok joint ∧
      (base principal).extendForForms 32 [second, first] = .ok swapped ∧
      (∀ record : Record, record.formId = some 3 →
        swapped.allows .update (.record record) = .ok true) ∧
      ∀ record : Record, record.formId = none →
        joint.allows .update (.record record) ≠ .ok true := by
  intro principal first second
  have hparse : ∀ form ∈ [first, second], RecordRulesParse 32 principal form := by
    simp [first, second, rulesParse_formListing.recordRules]
  obtain ⟨joint, hjoint⟩ : ∃ joint,
      (base principal).extendForForms 32 [first, second] = .ok joint :=
    exists_extendForForms rfl hparse
  obtain ⟨single, hsingle⟩ : ∃ single, (base principal).extendForRecords 32 first = .ok single :=
    exists_extendForRecords rfl rulesParse_formListing exists_check_base
  obtain ⟨hown, hothers, horder⟩ := extendForForms_joins (by decide) hjoint
  obtain ⟨swapped, hswapped, -, hallows, -⟩ := horder [second, first] (.swap ..)
  refine ⟨joint, swapped, hjoint, hswapped, fun record hrecord => ?_, fun record hrecord => ?_⟩
  · have hopens : Opens 32 principal first .update .everything :=
      ⟨⟨.canUpdateRecords, rfl, rfl⟩, fun hcreate => absurd hcreate (by decide)⟩
    have hsubmission : isSubmission first record = true := by
      rw [isSubmission, hrecord]
      rfl
    rw [hallows, hown first (by simp) single hsingle .update (.inl rfl) record hrecord,
      allows_of_opens rfl hsingle (by decide +kernel) hsubmission hopens
        fun hread => absurd hread (by decide)]
    rfl
  · rw [hothers record (by simp [hrecord, first, second, formListing, Entity.id]), allows,
      Entity.kind, check_base_record]
    decide +kernel

end Ability

end Clearance
