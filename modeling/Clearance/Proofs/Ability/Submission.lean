import Clearance.Proofs.Ability.Naming

/-!
# The records of a form

A record is decided about by an ability that has been extended for its form, or for several
forms at once. This file says which rules the two extensions add and what they decide about
one record.

For one form the rules about an action come from one list of it
(`Clearance.FormRecords.readingRules_cases`, `Clearance.FormRecords.changingRules_cases`), and
behind the rule that lets records be read stands the one that hides archived records from
those who cannot update the form. For several forms one rule joins what their lists give, and
none hides anything (`Clearance.Ability.check_extendForForms`).

Both extensions succeed when the rules of the lists parse
(`Clearance.Ability.exists_extendForRecords`): the base ability, which is asked whether the
form may be updated, answers about every loaded object.
-/

namespace Clearance

open Outcome

/-! ### Lists whose rules parse -/

namespace Listing

variable {limit : Int} {grants : List Grant} {type : PermissionType} {principal : Principal}

/-- A list whose rules **parse**, as far as they are for the roles of the principal. -/
def RulesParse (limit : Int) (grants : List Grant) (type : PermissionType)
    (principal : Principal) : Prop :=
  ∀ grant ∈ entriesOf grants type principal, ∀ document, grant.access = some document →
    ∃ tree, RuleTree.read limit document = .ok tree

theorem exists_recordAccess (htype : type.acceptsRules = true)
    (h : RulesParse limit grants type principal) :
    ∃ access, recordAccess limit grants type principal = .ok access := by
  have hconditions : ∃ conditions, ((entriesOf grants type principal).filterMap (·.access)).mapM
      (entryCondition limit type principal) = .ok conditions := by
    refine exists_mapM fun document hdocument => ?_
    obtain ⟨grant, hgrant, haccess⟩ := List.mem_filterMap.mp hdocument
    obtain ⟨tree, htree⟩ := h grant hgrant document haccess
    exact ⟨_, by rw [entryCondition, if_pos htype, compileRule, htree]; rfl⟩
  obtain ⟨conditions, hconditions⟩ := hconditions
  rw [recordAccess]
  split
  · exact ⟨_, rfl⟩
  · simp only [hconditions]
    exact ⟨_, rfl⟩

end Listing

/-- A rule that lets do one thing is not about another. -/
theorem Rule.filter_allow_of_ne {action other : Action} {kind : Kind}
    {condition : Option Condition} (hne : other ≠ action) (hmanage : other ≠ .manage) :
    (allow [other] [kind] condition).filter (isAbout action kind) = [] := by
  simp [allow, each, isAbout, appliesTo, hne, hmanage]

namespace FormRecords

variable {limit : Int} {form : Entity} {ability : Ability} {principal : Principal}
  {action : Action} {type : PermissionType} {rules added : List Rule} {access : Condition}
  {record : Record}

/-! ### Records of a form -/

/-- Whether a record was **submitted through** a form. -/
def isSubmission (form : Entity) (record : Record) : Bool :=
  form.id.isSome && record.formId == form.id

/-- A form whose rules **parse**, whichever of its lists they belong to. -/
def RulesParse (limit : Int) (principal : Principal) (form : Entity) : Prop :=
  ∀ type : PermissionType, type.acceptsRules = true →
    Listing.RulesParse limit form.grants type principal

/-- A form whose rules about **reading and changing** its records parse, of which those about
creating records are none. -/
def RecordRulesParse (limit : Int) (principal : Principal) (form : Entity) : Prop :=
  ∀ action type, recordType? action = some type →
    Listing.RulesParse limit form.grants type principal

theorem RulesParse.recordRules (h : RulesParse limit principal form) :
    RecordRulesParse limit principal form := by
  intro action type htype
  refine h type ?_
  cases action <;> cases htype <;> rfl

/-- Entries without rules have none that do not parse. -/
theorem rulesParse_of_no_rules (h : ∀ grant ∈ form.grants, grant.access = none) :
    RulesParse limit principal form := by
  intro type _ grant hgrant document hdocument
  have hmem : grant ∈ form.grants := (List.mem_filter.mp (List.mem_filter.mp hgrant).1).1
  cases (h grant hmem).symm.trans hdocument

/-- Whether a list of a form **gives** a record of it to a principal. -/
def Lists (limit : Int) (type : PermissionType) (principal : Principal) (form : Entity)
    (record : Record) : Prop :=
  isSubmission form record = true ∧ ∃ access,
    Listing.recordAccess limit form.grants type principal = .ok (some access) ∧
    access.check (.record record) = .ok true

theorem check_submitted :
    (submitted form).check (.record record) = .ok (isSubmission form record) := by
  have hcell : (Entity.record record).cell "form_id" = .ofId record.formId := rfl
  rw [submitted, Condition.check, hcell, isSubmission]
  rcases form.id with _ | id
  · cases record.formId <;> rfl
  · rcases hform : record.formId with _ | formId
    · rfl
    · simp [Cell.ofId, Operand.ofId, Cell.equals]

/-- The restriction to a form lets through what was submitted through it, and nothing
else. -/
theorem check_restricted :
    (restricted form access).check (.record record) =
      if isSubmission form record then access.check (.record record) else .ok false := by
  rw [restricted, Condition.check, Condition.checkAll, check_submitted]
  cases isSubmission form record with
  | false => rfl
  | true =>
    rw [if_pos rfl, Condition.checkAll]
    rcases access.check (.record record) with _ | _ | _ <;> rfl

/-- The rule that hides archived records decides about the archived records of its form, and
declines on all others. -/
theorem meets_hideArchived_eq : (hideArchived form).meets (.record record) =
    .ok (isSubmission form record && record.archived.same (.flag true)) := by
  have hcell : (Entity.record record).cell "archived" = .content .flag record.archived := rfl
  rw [Rule.meets, hideArchived]
  dsimp only
  rw [check_restricted, Condition.check, hcell]
  cases isSubmission form record with
  | false => rfl
  | true => cases record.archived <;> rfl

theorem meets_hideArchived (hform : isSubmission form record = true)
    (harchived : record.archived = .flag true) :
    (hideArchived form).meets (.record record) = .ok true := by
  rw [meets_hideArchived_eq, hform, harchived]
  rfl

/-! ### Rules -/

/-- The rules about **creating** records: none if records may be created anyway, or the list
gives none or its rule is one that no record meets, and otherwise what it gives. -/
theorem creationRules_cases (h : creationRules limit form ability principal = .ok rules) :
    (ability.possible .create .record = true ∧ rules = []) ∨
    (ability.possible .create .record = false ∧
      ((∃ found, Listing.recordAccess limit form.grants .canCreateRecords principal = .ok found ∧
        (∀ access ∈ found, access.isNothing = true) ∧ rules = []) ∨
      ∃ access,
        Listing.recordAccess limit form.grants .canCreateRecords principal = .ok (some access) ∧
        access.isNothing = false ∧
        rules = Rule.allow [.create] [.record] (some (restricted form access)))) := by
  rw [creationRules] at h
  split at h
  · next hpossible => exact .inl ⟨hpossible, (Except.ok.inj h).symm⟩
  · next hpossible =>
    refine .inr ⟨Bool.eq_false_iff.mpr hpossible, ?_⟩
    obtain ⟨found, hfound, rfl⟩ := map_eq_ok.mp h
    cases found with
    | none => exact .inl ⟨none, hfound, by simp, rfl⟩
    | some access =>
      cases hnothing : access.isNothing with
      | true => exact .inl ⟨some access, hfound, by simpa using hnothing, by simp [hnothing]⟩
      | false => exact .inr ⟨access, hfound, hnothing, by simp [hnothing]⟩

/-- The rules about **reading** records: none if records may be read anyway or the list gives
none, and otherwise what it gives, along with the rule that hides archived records unless
the form may be updated. -/
theorem readingRules_cases (h : readingRules limit form ability principal = .ok rules) :
    (ability.possible .read .record = true ∧ rules = []) ∨
    (ability.possible .read .record = false ∧
      ((Listing.recordAccess limit form.grants .canSeeRecords principal = .ok none ∧ rules = []) ∨
      ∃ access mayUpdate,
        Listing.recordAccess limit form.grants .canSeeRecords principal = .ok (some access) ∧
        ability.allows .update form = .ok mayUpdate ∧
        rules = Rule.allow [.read] [.record] (some (restricted form access)) ++
          if mayUpdate then [] else [hideArchived form])) := by
  rw [readingRules] at h
  split at h
  · next hpossible => exact .inl ⟨hpossible, (Except.ok.inj h).symm⟩
  · next hpossible =>
    refine .inr ⟨Bool.eq_false_iff.mpr hpossible, ?_⟩
    obtain ⟨found, hfound, h⟩ := bind_eq_ok.mp h
    obtain ⟨listed, hlisted, rfl⟩ := map_eq_ok.mp (mapError_eq_ok.mp hfound)
    cases listed with
    | none => exact .inl ⟨hlisted, (Except.ok.inj h).symm⟩
    | some access =>
      obtain ⟨mayUpdate, hupdate, h⟩ := bind_eq_ok.mp h
      exact .inr ⟨access, mayUpdate, hlisted, mapError_eq_ok.mp hupdate, (Except.ok.inj h).symm⟩

/-- The rules about **changing** records in one way. -/
theorem changingRules_cases
    (h : changingRules limit form ability principal action type = .ok rules) :
    (ability.possible action .record = true ∧ rules = []) ∨
    (ability.possible action .record = false ∧
      ((Listing.recordAccess limit form.grants type principal = .ok none ∧ rules = []) ∨
      ∃ access, Listing.recordAccess limit form.grants type principal = .ok (some access) ∧
        rules = Rule.allow [action] [.record] (some (restricted form access)))) := by
  rw [changingRules] at h
  split at h
  · next hpossible => exact .inl ⟨hpossible, (Except.ok.inj h).symm⟩
  · next hpossible =>
    refine .inr ⟨Bool.eq_false_iff.mpr hpossible, ?_⟩
    obtain ⟨found, hfound, rfl⟩ := map_eq_ok.mp h
    obtain ⟨listed, hlisted, rfl⟩ := map_eq_ok.mp hfound
    cases listed with
    | none => exact .inl ⟨hlisted, rfl⟩
    | some access => exact .inr ⟨access, hlisted, rfl⟩

/-- **The rules of a form are there** if the rules of its lists parse and it has an answer
whether the form may be updated. -/
theorem exists_rules (hparse : RulesParse limit principal form)
    (hupdate : ∃ answer, ability.allows .update form = .ok answer) :
    ∃ added, FormRecords.rules limit form ability principal = .ok added := by
  have haccess : ∀ type : PermissionType, type.acceptsRules = true →
      ∃ access, Listing.recordAccess limit form.grants type principal = .ok access :=
    fun type htype => Listing.exists_recordAccess htype (hparse type htype)
  have hcreation : ∃ rules, creationRules limit form ability principal = .ok rules := by
    obtain ⟨access, haccess⟩ := haccess .canCreateRecords rfl
    rw [creationRules, haccess]
    split <;> exact ⟨_, rfl⟩
  have hreading : ∃ rules, readingRules limit form ability principal = .ok rules := by
    obtain ⟨listed, hlisted⟩ := haccess .canSeeRecords rfl
    obtain ⟨mayUpdate, hmayUpdate⟩ := hupdate
    rw [readingRules, access, hlisted, hmayUpdate]
    split
    · exact ⟨_, rfl⟩
    · cases listed <;> exact ⟨_, rfl⟩
  have hchanging : ∀ (action : Action) (type : PermissionType), type.acceptsRules = true →
      ∃ rules, changingRules limit form ability principal action type = .ok rules := by
    intro action type htype
    obtain ⟨listed, hlisted⟩ := haccess type htype
    rw [changingRules, access, hlisted]
    split <;> exact ⟨_, rfl⟩
  obtain ⟨creation, hcreation⟩ := hcreation
  obtain ⟨reading, hreading⟩ := hreading
  obtain ⟨updating, hupdating⟩ := hchanging .update .canUpdateRecords rfl
  obtain ⟨deleting, hdeleting⟩ := hchanging .delete .canDeleteRecords rfl
  rw [FormRecords.rules, hcreation, hreading, hupdating, hdeleting]
  exact ⟨_, rfl⟩

/-- The rule about one action on the records of **several forms**: none if the action is
possible anyway, and otherwise one that joins what their lists give. -/
theorem jointRule_cases {forms : List Entity}
    (h : jointRule limit forms ability principal action type = .ok rules) :
    (ability.possible action .record = true ∧ rules = []) ∨
    (ability.possible action .record = false ∧ ∃ conditions,
      (∀ condition, condition ∈ conditions ↔ ∃ form ∈ forms, ∃ access,
        Listing.recordAccess limit form.grants type principal = .ok (some access) ∧
        condition = restricted form access) ∧
      rules = if conditions.isEmpty then []
        else Rule.allow [action] [.record] (some (.any conditions))) := by
  rw [jointRule] at h
  split at h
  · next hpossible => exact .inl ⟨hpossible, (Except.ok.inj h).symm⟩
  · next hpossible =>
    obtain ⟨found, hfound, rfl⟩ := map_eq_ok.mp h
    refine .inr ⟨Bool.eq_false_iff.mpr hpossible, found.filterMap id, fun condition => ?_, rfl⟩
    rw [List.mem_filterMap]
    constructor
    · rintro ⟨_, hmem, rfl⟩
      obtain ⟨form, hform, haccess⟩ := ((mapM_eq_ok hfound).2 _).mp hmem
      obtain ⟨listed, hlisted, hcondition⟩ := map_eq_ok.mp haccess
      obtain ⟨access, rfl, rfl⟩ := Option.map_eq_some_iff.mp hcondition
      exact ⟨form, hform, access, hlisted, rfl⟩
    · rintro ⟨form, hform, access, haccess, rfl⟩
      refine ⟨_, ((mapM_eq_ok hfound).2 _).mpr ⟨form, hform, ?_⟩, rfl⟩
      rw [FormRecords.access, haccess]
      rfl

/-- It is about records, and allows. -/
theorem allows_of_jointRule {forms : List Entity}
    (h : jointRule limit forms ability principal action type = .ok rules) :
    ∀ rule ∈ rules, rule.kind = .record ∧ rule.inverted = false := by
  rcases jointRule_cases h with ⟨-, rfl⟩ | ⟨-, conditions, -, rfl⟩
  · exact fun rule hrule => (List.not_mem_nil hrule).elim
  · split
    · exact fun rule hrule => (List.not_mem_nil hrule).elim
    · intro rule hrule
      obtain ⟨-, hkind, -, hinverted⟩ := Rule.mem_each.mp hrule
      exact ⟨List.mem_singleton.mp hkind, hinverted⟩

/-- It is about its action and about no other. -/
theorem filter_jointRule {forms : List Entity} (hmanage : action ≠ .manage)
    (h : jointRule limit forms ability principal action type = .ok rules) (other : Action) :
    rules.filter (Rule.isAbout other .record) = if action = other then rules else [] := by
  rcases jointRule_cases h with ⟨-, rfl⟩ | ⟨-, conditions, -, rfl⟩
  · simp
  · split
    · simp
    · by_cases hsame : action = other
      · subst hsame
        rw [if_pos rfl]
        exact List.filter_eq_self.mpr fun rule hrule => by
          obtain ⟨haction, hkind, -⟩ := Rule.mem_each.mp hrule
          simp_all [Rule.isAbout, Rule.appliesTo]
      · rw [if_neg hsame, Rule.filter_allow_of_ne hsame hmanage]

/-- The joint rule **about one action**; none is about creating or managing records. -/
def joiningRules (limit : Int) (forms : List Entity) (ability : Ability) (principal : Principal)
    (action : Action) : Except RuleError (List Rule) :=
  match recordType? action with
  | some type => jointRule limit forms ability principal action type
  | none => .ok []

theorem exists_jointRule {forms : List Entity} (htype : type.acceptsRules = true)
    (hparse : ∀ form ∈ forms, Listing.RulesParse limit form.grants type principal) :
    ∃ rules, jointRule limit forms ability principal action type = .ok rules := by
  have hfound : ∃ found, (forms.mapM fun form => access limit form principal type) = .ok found := by
    refine exists_mapM fun form hform => ?_
    obtain ⟨listed, hlisted⟩ := Listing.exists_recordAccess htype (hparse form hform)
    rw [access, hlisted]
    exact ⟨_, rfl⟩
  obtain ⟨found, hfound⟩ := hfound
  rw [jointRule, hfound]
  split <;> exact ⟨_, rfl⟩

end FormRecords

namespace Condition

variable {entity : Entity}

theorem holdAny_eq_true_iff {parts : List Condition} :
    holdAny entity parts = true ↔ ∃ part ∈ parts, part.holds entity = true := by
  induction parts with
  | nil => simp [holdAny]
  | cons part rest ih => rw [holdAny, Bool.or_eq_true, ih, List.exists_mem_cons_iff]

/-- A disjunction holds if some part does, also if it is the only one. -/
theorem holds_any {parts : List Condition} :
    (Condition.any parts).holds entity = true ↔ ∃ part ∈ parts, part.holds entity = true := by
  rcases parts with _ | ⟨part, _ | ⟨other, rest⟩⟩
  · exact holdAny_eq_true_iff
  · simp [Condition.any]
  · exact holdAny_eq_true_iff

end Condition

namespace Ability

variable {limit : Int} {form : Entity} {ability extended : Ability} {record : Record}

/-! ### One form -/

/-- **An ability is extended for a form** whose rules parse. -/
theorem exists_extendForRecords {principal : Principal}
    (hprincipal : ability.principal = some principal)
    (hparse : FormRecords.RulesParse limit principal form)
    (hupdate : ∃ answer, ability.allows .update form = .ok answer) :
    ∃ extended, ability.extendForRecords limit form = .ok extended := by
  obtain ⟨added, hadded⟩ := FormRecords.exists_rules hparse hupdate
  simp only [extendForRecords, hprincipal, hadded]
  exact ⟨_, rfl⟩

/-! ### Several forms -/

variable {forms : List Entity} {principal : Principal} {action : Action} {type : PermissionType}

theorem check_ne_true_of_not_possible {kind : Kind} {entity : Entity}
    (h : ability.possible action kind = false) : ability.check action kind entity ≠ .ok true :=
  fun hcheck => Bool.noConfusion (h.symm.trans (possible_of_check hcheck))

/-- What the list of a form gives holds of the loaded records of the form that it gives. -/
theorem holds_restricted {access : Condition}
    (haccess : Listing.recordAccess limit form.grants type principal = .ok (some access))
    (hloaded : (Entity.record record).IsLoaded) :
    (FormRecords.restricted form access).holds (.record record) = true ↔
      FormRecords.isSubmission form record = true ∧ access.check (.record record) = .ok true := by
  have hsuits := FormRecords.suits_restricted form (Listing.suits_recordAccess haccess)
  have hcheck := Condition.check_eq_holds hloaded hsuits
  rw [FormRecords.check_restricted] at hcheck
  cases hform : FormRecords.isSubmission form record with
  | false =>
    rw [hform, if_neg Bool.false_ne_true] at hcheck
    simp [← Except.ok.inj hcheck]
  | true =>
    rw [hform, if_pos rfl] at hcheck
    simp [hcheck]

/-- What one rule that joins the lists of forms decides about a loaded record. -/
theorem check_extend_jointRule {rules : List Rule}
    (h : FormRecords.jointRule limit forms ability principal action type = .ok rules)
    (hpossible : ability.possible action .record = false)
    (hloaded : (Entity.record record).IsLoaded) :
    (ability.extend rules).check action .record (.record record) = .ok true ↔
      ∃ form ∈ forms, FormRecords.Lists limit type principal form record := by
  rcases FormRecords.jointRule_cases h with ⟨htrue, -⟩ | ⟨-, conditions, hconditions, rfl⟩
  · exact Bool.noConfusion (hpossible.symm.trans htrue)
  have hgiven : (Condition.any conditions).holds (.record record) = true ↔
      ∃ form ∈ forms, FormRecords.Lists limit type principal form record := by
    rw [Condition.holds_any]
    constructor
    · rintro ⟨condition, hcondition, hholds⟩
      obtain ⟨form, hform, access, haccess, rfl⟩ := (hconditions condition).mp hcondition
      obtain ⟨hsubmission, hcheck⟩ := (holds_restricted haccess hloaded).mp hholds
      exact ⟨form, hform, hsubmission, access, haccess, hcheck⟩
    · rintro ⟨form, hform, hsubmission, access, haccess, hcheck⟩
      exact ⟨_, (hconditions _).mpr ⟨form, hform, access, haccess, rfl⟩,
        (holds_restricted haccess hloaded).mpr ⟨hsubmission, hcheck⟩⟩
  rw [← hgiven]
  cases hempty : conditions.isEmpty with
  | true =>
    -- no list gives anything, and before nothing was allowed
    obtain rfl := List.isEmpty_iff.mp hempty
    rw [if_pos rfl]
    refine iff_of_false ?_ (by simp [Condition.any, Condition.holds, Condition.holdAny])
    rw [check_extend]
    exact check_ne_true_of_not_possible hpossible
  | false =>
    have hsuits : (Condition.any conditions).suits .record = true := by
      refine Condition.suits_any fun condition hcondition => ?_
      obtain ⟨form, -, access, haccess, rfl⟩ := (hconditions condition).mp hcondition
      exact FormRecords.suits_restricted form (Listing.suits_recordAccess haccess)
    have hmeets : Rule.meets (.record record)
        { action := action, kind := .record, condition := some (.any conditions) } =
          .ok ((Condition.any conditions).holds (.record record)) :=
      Condition.check_eq_holds hloaded hsuits
    have hfilter : (Rule.allow [action] [.record] (some (.any conditions))).filter
        (Rule.isAbout action .record) =
          [{ action := action, kind := .record, condition := some (.any conditions) }] := by
      simp [Rule.allow, Rule.each, Rule.isAbout, Rule.appliesTo]
    rw [if_neg Bool.false_ne_true, check_extend, hfilter, List.reverse_singleton,
      Rule.firstDeciding_cons, hmeets]
    cases (Condition.any conditions).holds (.record record) with
    | true => simp
    | false => simpa [Rule.firstDeciding] using check_ne_true_of_not_possible hpossible

/-- An ability is extended for several forms whose rules parse, those about creating records
apart. -/
theorem exists_extendForForms (hprincipal : ability.principal = some principal)
    (hparse : ∀ form ∈ forms, FormRecords.RecordRulesParse limit principal form) :
    ∃ extended, ability.extendForForms limit forms = .ok extended := by
  have hjoint : ∀ (action : Action) (type : PermissionType), type.acceptsRules = true →
      recordType? action = some type →
      ∃ rules, FormRecords.jointRule limit forms ability principal action type = .ok rules :=
    fun action type haccepts htype =>
      FormRecords.exists_jointRule haccepts fun form hform => hparse form hform action type htype
  obtain ⟨reading, hreading⟩ := hjoint .read .canSeeRecords rfl rfl
  obtain ⟨updating, hupdating⟩ := hjoint .update .canUpdateRecords rfl rfl
  obtain ⟨deleting, hdeleting⟩ := hjoint .delete .canDeleteRecords rfl rfl
  rw [extendForForms, hprincipal]
  simp only [hreading, hupdating, hdeleting]
  exact ⟨_, rfl⟩

/-- **What is added for several forms**, and what of it is about one action. -/
theorem exists_joiningRules (hprincipal : ability.principal = some principal)
    (h : ability.extendForForms limit forms = .ok extended) :
    ∃ added, extended = ability.extend added ∧
      (∀ rule ∈ added, rule.kind = .record ∧ rule.inverted = false) ∧
      ∀ action, FormRecords.joiningRules limit forms ability principal action =
        .ok (added.filter (Rule.isAbout action .record)) := by
  rw [extendForForms, hprincipal] at h
  obtain ⟨reading, hreading, h⟩ := bind_eq_ok.mp h
  obtain ⟨updating, hupdating, h⟩ := bind_eq_ok.mp h
  obtain ⟨deleting, hdeleting, h⟩ := bind_eq_ok.mp h
  obtain rfl := Except.ok.inj h
  refine ⟨_, rfl, ?_, fun action => ?_⟩
  · simp only [List.forall_mem_append]
    exact ⟨⟨FormRecords.allows_of_jointRule hreading, FormRecords.allows_of_jointRule hupdating⟩,
      FormRecords.allows_of_jointRule hdeleting⟩
  · -- each of the three rules is about its own action
    rw [List.filter_append, List.filter_append,
      FormRecords.filter_jointRule (by decide) hreading,
      FormRecords.filter_jointRule (by decide) hupdating,
      FormRecords.filter_jointRule (by decide) hdeleting]
    cases action with
    | create | manage => rfl
    | read => simpa [FormRecords.joiningRules, recordType?] using hreading
    | update => simpa [FormRecords.joiningRules, recordType?] using hupdating
    | delete => simpa [FormRecords.joiningRules, recordType?] using hdeleting

/-- **Several forms**: an action that was not possible is allowed on a loaded record just when
the list of the record's form among them gives it. -/
theorem check_extendForForms (hprincipal : ability.principal = some principal)
    (h : ability.extendForForms limit forms = .ok extended) (htype : recordType? action = some type)
    (hpossible : ability.possible action .record = false)
    (hloaded : (Entity.record record).IsLoaded) :
    extended.check action .record (.record record) = .ok true ↔
      ∃ form ∈ forms, FormRecords.Lists limit type principal form record := by
  obtain ⟨added, rfl, -, habout⟩ := exists_joiningRules hprincipal h
  have hrules : FormRecords.jointRule limit forms ability principal action type =
      .ok (added.filter (Rule.isAbout action .record)) := by
    rw [← habout action, FormRecords.joiningRules, htype]
  rw [← check_extend_jointRule hrules hpossible hloaded, check_extend, check_extend,
    List.filter_filter]
  simp only [Bool.and_self]

end Ability

/-! ### Answers -/

namespace Ability

variable {ability : Ability} {principal : Principal} {action : Action} {kind : Kind}
  {entity : Entity}

/-- Without conditions there is no difference between what is allowed and what is possible. -/
theorem check_eq_possible (h : ∀ rule ∈ ability.rulesFor action kind, rule.condition = none) :
    ability.check action kind entity = .ok (ability.possible action kind) := by
  rw [check, possible]
  have hreverse : ∀ rule ∈ (ability.rulesFor action kind).reverse, rule.condition = none :=
    fun rule hrule => h rule (List.mem_reverse.mp hrule)
  generalize (ability.rulesFor action kind).reverse = rules at hreverse ⊢
  rcases rules with _ | ⟨rule, rest⟩
  · rfl
  · have hrule := hreverse rule List.mem_cons_self
    simp [Rule.firstDeciding, hrule, Except.map, Rule.decidesKind]

/-- The base ability decides about all records alike. -/
theorem check_base_record :
    (base principal).check action .record entity =
      .ok ((base principal).possible action .record) := by
  refine check_eq_possible fun rule hrule => ?_
  have hspares := BaseRules.sparesRecords_all rule (mem_rulesFor.mp hrule).1
  cases hcondition : rule.condition with
  | none => rfl
  | some condition => exact absurd (kind_of_mem_rulesFor hrule) (hspares condition hcondition).1

theorem kind_mem_stored (entity : Entity) : entity.kind ∈ Kind.stored := by
  cases entity <;> simp [Entity.kind, Kind.stored]

/-- **About loaded objects an ability always answers** if its rules suit their kinds. -/
theorem exists_allows (hrules : ∀ rule ∈ ability.rules, rule.SuitsKind)
    (hloaded : entity.IsLoaded) :
    ∃ answer, ability.allows action entity = .ok answer := by
  rcases hcheck : ability.allows action entity with fault | answer
  · -- a fault would be that of a rule, whose condition suits the kind
    obtain ⟨rule, hrule, hfault⟩ := Rule.exists_of_firstDeciding_eq_error (map_eq_error.mp hcheck)
    have hrule := List.mem_reverse.mp hrule
    have hkind := kind_of_mem_rulesFor hrule
    cases hcondition : rule.condition with
    | none => simp [Rule.meets, hcondition] at hfault
    | some condition =>
      have hsuits := hrules rule (mem_rulesFor.mp hrule).1 (hkind ▸ kind_mem_stored entity)
        condition hcondition
      rw [hkind] at hsuits
      simp [Rule.meets, hcondition, Condition.check_eq_holds hloaded hsuits] at hfault
  · exact ⟨answer, rfl⟩

/-- So does the base ability, -/
theorem exists_allows_base (hloaded : entity.IsLoaded) :
    ∃ answer, (base principal).allows action entity = .ok answer :=
  exists_allows BaseRules.suitsKind_all hloaded

/-- and so does what it is extended to. -/
theorem exists_allows_of_appendsMany (h : AppendsMany (base principal) ability)
    (hloaded : entity.IsLoaded) : ∃ answer, ability.allows action entity = .ok answer :=
  exists_allows (suitsKind_of_appendsMany h BaseRules.suitsKind_all) hloaded

end Ability

end Clearance
