import Clearance.Proofs.Ability.Borrowing
import Clearance.Proofs.Ability.Growth
import Clearance.Proofs.Ability.Opening
import Clearance.Proofs.Ability.Openness

/-!
# What an ability denies

The base ability denies nothing, and of the eight extensions only the one for the records of a
form adds a rule that denies, the one that hides the archived records of the form. It does so
together with a rule that lets records be read, and only when reading them was not possible
before. Since what is possible stays so, it happens at most once, however often and in whatever
order an ability is extended. The invariant is `Clearance.Ability.HidesOnce`.

A rule for `manage` is a wildcard, and a rule that denies could take something from it again.
It never does: what may be managed was granted without a condition, or it was granted by a rule
of the base ability, and then reading was possible. That the wildcard holds
(`Clearance.Ability.ManagesAll`) is kept by every way to append rules
(`Clearance.Ability.managesAll_of_appends`).
-/

namespace Clearance

open Outcome

/-- A rule about managing is about every action. -/
theorem Rule.isAbout_of_manage {rule : Rule} {kind : Kind} (h : rule.isAbout .manage kind = true)
    (action : Action) : rule.isAbout action kind = true := by
  obtain ⟨hkind, haction⟩ := isAbout_iff.mp h
  exact isAbout_iff.mpr ⟨hkind, .inl (haction.elim id id)⟩

/-- Of rules that allow none denies. -/
theorem Rule.filter_inverted_eq_nil {rules : List Rule}
    (h : ∀ rule ∈ rules, rule.inverted = false) : rules.filter (·.inverted) = [] := by
  refine List.filter_eq_nil_iff.mpr fun rule hrule => ?_
  rw [h rule hrule]
  exact Bool.false_ne_true

theorem Rule.filter_inverted_allow {actions : List Action} {kinds : List Kind}
    {condition : Option Condition} : (allow actions kinds condition).filter (·.inverted) = [] :=
  filter_inverted_eq_nil fun _ hrule => (mem_each.mp hrule).2.2.2

namespace FormRecords

variable {limit : Int} {form : Entity} {forms : List Entity} {ability : Ability}
  {principal : Principal} {action : Action} {type : PermissionType} {rules added : List Rule}
  {record : Record}

/-- The rule that hides archived records decides about the archived records of its form. -/
theorem meets_hideArchived_iff : (hideArchived form).meets (.record record) = .ok true ↔
    isSubmission form record = true ∧ record.archived.same (.flag true) = true := by
  rw [meets_hideArchived_eq, Except.ok.injEq, Bool.and_eq_true]

/-- **A form denies** by that rule only, with the rules that first let records be read. -/
theorem Adds.denials (h : Adds limit form ability principal action rules) :
    rules.filter (·.inverted) = [] ∨
      rules.filter (·.inverted) = [hideArchived form] ∧ action = .read ∧
        ability.possible action .record = false ∧
        ∃ access, Opens limit principal form action access := by
  cases h with
  | possible _ => exact .inl rfl
  | closed _ _ => exact .inl rfl
  | opened _ _ _ _ => exact .inl Rule.filter_inverted_allow
  | hidden access hpossible hopens hread _ =>
    refine .inr ⟨?_, hread, hpossible, access, hopens⟩
    rw [List.filter_append, Rule.filter_inverted_allow]
    rfl

/-- Rules about another action than to read do not deny. -/
theorem Adds.denials_of_ne_read (h : Adds limit form ability principal action rules)
    (hread : action ≠ .read) : rules.filter (·.inverted) = [] :=
  h.denials.resolve_right fun hhidden => hread hhidden.2.1

theorem denials_of_rules (h : FormRecords.rules limit form ability principal = .ok added) :
    added.filter (·.inverted) = [] ∨
      added.filter (·.inverted) = [hideArchived form] ∧ ability.possible .read .record = false ∧
        ∃ access, Opens limit principal form .read access := by
  obtain ⟨creation, hcreation, h⟩ := bind_eq_ok.mp h
  obtain ⟨reading, hreading, h⟩ := bind_eq_ok.mp h
  obtain ⟨updating, hupdating, h⟩ := bind_eq_ok.mp h
  obtain ⟨deleting, hdeleting, h⟩ := bind_eq_ok.mp h
  obtain rfl := Except.ok.inj h
  have hcreation := (adds_of_creationRules (mapError_eq_ok.mp hcreation)).denials_of_ne_read
    (by decide)
  have hupdating := (adds_of_changingRules (by decide) rfl
    (mapError_eq_ok.mp hupdating)).denials_of_ne_read (by decide)
  have hdeleting := (adds_of_changingRules (by decide) rfl
    (mapError_eq_ok.mp hdeleting)).denials_of_ne_read (by decide)
  simp only [List.filter_append, hcreation, hupdating, hdeleting, List.nil_append, List.append_nil]
  exact (adds_of_readingRules hreading).denials.imp_right fun hhidden => ⟨hhidden.1, hhidden.2.2⟩

end FormRecords

namespace Ability

open FormRecords

variable {ability extended : Ability} {principal : Principal} {entity : Entity}
  {extensions : List Extension}

/-! ### The rules that deny -/

/-- The rules of an ability that **deny**. -/
def denials (ability : Ability) : List Rule :=
  ability.rules.filter (·.inverted)

@[simp] theorem denials_extend (ability : Ability) (added : List Rule) :
    (ability.extend added).denials = ability.denials ++ added.filter (·.inverted) :=
  List.filter_append ..

theorem denials_base : (base principal).denials = [] :=
  Rule.filter_inverted_eq_nil fun rule hrule => (BaseRules.isOpen_all rule hrule).allows

/-- What is borrowed does not deny. -/
theorem denials_of_borrowFor {source : Except AccessError (List (List Entity))}
    (h : ability.borrowFor entity source = .ok extended) : extended.denials = ability.denials := by
  obtain ⟨lent, rfl, -⟩ := exists_borrows h
  have hnone : (lent.map (ruleForOne entity)).filter (·.inverted) = [] := by
    refine Rule.filter_inverted_eq_nil fun rule hrule => ?_
    obtain ⟨action, -, rfl⟩ := List.mem_map.mp hrule
    rfl
  rw [denials_extend, hnone, List.append_nil]

theorem denials_of_extendForContainers {store : Store} {application : Option Entity}
    {entities : List Entity}
    (h : ability.extendForContainers store application entities = .ok extended) :
    extended.denials = ability.denials := by
  refine foldlM_preserves (P := fun state => state.denials = ability.denials) ?_ rfl h
  intro state next entity _ hstate hnext
  rw [extendForContainer_eq_borrowFor] at hnext
  exact (denials_of_borrowFor hnext).trans hstate

theorem denials_of_allowCreating {kind : Kind} {container : Entity}
    (h : ability.allowCreating kind container = .ok extended) :
    extended.denials = ability.denials := by
  obtain ⟨mayUpdate, -, h⟩ := bind_eq_ok.mp h
  obtain rfl := Except.ok.inj h
  split
  · rw [denials_extend, Rule.filter_inverted_allow, List.append_nil]
  · rfl

theorem denials_of_extendForForms {limit : Int} {forms : List Entity}
    (h : ability.extendForForms limit forms = .ok extended) :
    extended.denials = ability.denials := by
  cases hprincipal : ability.principal with
  | none =>
    rw [extendForForms, hprincipal] at h
    rw [Except.ok.inj h]
  | some principal =>
    obtain ⟨added, rfl, hadded, -⟩ := exists_joiningRules hprincipal h
    rw [denials_extend, Rule.filter_inverted_eq_nil fun rule hrule => (hadded rule hrule).2,
      List.append_nil]

/-- An extension for the records of a form denies by one rule if at all, and then it makes it
possible to read records. -/
theorem denials_of_extendForRecords {limit : Int} {form : Entity}
    (h : ability.extendForRecords limit form = .ok extended) :
    extended.denials = ability.denials ∨
      extended.denials = ability.denials ++ [hideArchived form] ∧
        ability.possible .read .record = false ∧ extended.possible .read .record = true := by
  cases hprincipal : ability.principal with
  | none =>
    rw [extendForRecords, hprincipal] at h
    exact .inl (by rw [Except.ok.inj h])
  | some principal =>
    have hpossible : extended.possible .read .record = true ↔
        ability.possible .read .record = true ∨
          ∃ access, Opens limit principal form .read access :=
      possible_extendForRecords hprincipal h
    rw [extendForRecords, hprincipal] at h
    obtain ⟨added, hadded, rfl⟩ := map_eq_ok.mp h
    rw [denials_extend]
    rcases denials_of_rules hadded with hnone | ⟨hhidden, hbefore, hopens⟩
    · exact .inl (by rw [hnone, List.append_nil])
    · exact .inr ⟨by rw [hhidden], hbefore, hpossible.mpr (.inr hopens)⟩

/-- An ability that **hides once**: nothing is denied, or only to read the archived records of
one form, and then some records may be read. -/
def HidesOnce (ability : Ability) : Prop :=
  ability.denials = [] ∨
    ∃ form, ability.denials = [hideArchived form] ∧ ability.possible .read .record = true

/-- What denies nothing more and allows no less still hides once. -/
theorem HidesOnce.of_denials_eq (h : ability.HidesOnce) (hgrows : ability.Grows extended)
    (hdenials : extended.denials = ability.denials) : extended.HidesOnce := by
  rw [HidesOnce, hdenials]
  rcases h with hnone | ⟨form, hform, hread⟩
  · exact .inl hnone
  · exact .inr ⟨form, hform, hgrows.possible hread⟩

/-- **One extension** keeps the invariant. -/
theorem HidesOnce.apply {extension : Extension} (h : ability.HidesOnce)
    (happly : extension.apply ability = .ok extended) : extended.HidesOnce := by
  have hgrows := grows_of_appendsMany (appendsMany_of_apply happly)
  cases extension with
  | content store entity container =>
    rw [Extension.apply, extendForContent_eq_borrowFor] at happly
    exact h.of_denials_eq hgrows (denials_of_borrowFor happly)
  | page store entity owner =>
    rw [Extension.apply, extendForContainer_eq_borrowFor] at happly
    exact h.of_denials_eq hgrows (denials_of_borrowFor happly)
  | step store entity =>
    rw [Extension.apply, extendForContainer_eq_borrowFor] at happly
    exact h.of_denials_eq hgrows (denials_of_borrowFor happly)
  | application store entity | workflow store entity =>
    obtain ⟨-, -, happly⟩ := bind_eq_ok.mp happly
    obtain ⟨next, hnext, happly⟩ := bind_eq_ok.mp happly
    exact h.of_denials_eq hgrows
      ((denials_of_allowCreating happly).trans (denials_of_extendForContainers hnext))
  | features applicationId =>
    obtain rfl := Except.ok.inj happly
    refine h.of_denials_eq hgrows ?_
    rw [extendForFeatures]
    split
    · rfl
    · rw [denials_extend, Rule.filter_inverted_eq_nil fun _ hrule => (mem_featureRules hrule).2,
        List.append_nil]
  | forms limit entities =>
    exact h.of_denials_eq hgrows (denials_of_extendForForms (mapError_eq_ok.mp happly))
  | records limit entity =>
    rcases denials_of_extendForRecords happly with hsame | ⟨hdenials, hbefore, hafter⟩
    · exact h.of_denials_eq hgrows hsame
    · -- records could not be read, so nothing had been hidden
      rcases h with hnone | ⟨form, -, hread⟩
      · exact .inr ⟨entity, by rw [hdenials, hnone, List.nil_append], hafter⟩
      · exact Bool.noConfusion (hbefore.symm.trans hread)

/-- **Any number of extensions** keep it. -/
theorem HidesOnce.extendBy (h : ability.HidesOnce)
    (hextended : ability.extendBy extensions = .ok extended) : extended.HidesOnce :=
  foldlM_preserves (fun _ _ _ _ hstate hnext => hstate.apply hnext) h hextended

/-! ### The wildcard -/

/-- An ability that **manages all**: whoever may manage may do everything, to one object and
to some object of a kind. -/
structure ManagesAll (ability : Ability) : Prop where
  /-- On an object. -/
  allowed : ∀ {kind : Kind} {entity : Entity}, ability.check .manage kind entity = .ok true →
    ∀ action, ability.check action kind entity = .ok true
  /-- On a kind. -/
  possible : ∀ {kind : Kind}, ability.possible .manage kind = true →
    ∀ action, ability.possible action kind = true

/-- **Open rules manage all**: a rule that permits to manage permits everything. -/
theorem managesAll_of_isOpen (h : ∀ rule ∈ ability.rules, rule.IsOpen) : ability.ManagesAll where
  allowed {kind entity} hmanage action := by
    have hanswer : ∀ action, ∃ answer, ability.check action kind entity = .ok answer ∧
        (answer = true ↔ Rule.Permit ability.rules action kind entity) := fun _ => check_of_isOpen h
    obtain ⟨managed, hmanaged, hpermit⟩ := hanswer .manage
    obtain ⟨answer, hanswer, hiff⟩ := hanswer action
    obtain rfl := Except.ok.inj (hmanaged.symm.trans hmanage)
    obtain ⟨rule, hrule, habout, hmeets⟩ := hpermit.mp rfl
    rw [hanswer, hiff.mpr ⟨rule, hrule, Rule.isAbout_of_manage habout action, hmeets⟩]
  possible {kind} hmanage action := by
    obtain ⟨rule, hrule, habout⟩ := (possible_of_isOpen h).mp hmanage
    exact (possible_of_isOpen h).mpr ⟨rule, hrule, Rule.isAbout_of_manage habout action⟩

theorem managesAll_base : (base principal).ManagesAll :=
  managesAll_of_isOpen BaseRules.isOpen_all

variable {added : List Rule}

/-- Rules that say nothing about managing keep the wildcard, if the ability grows by them. -/
theorem ManagesAll.extend_of_ne_manage (h : ability.ManagesAll)
    (hgrows : ability.Grows (ability.extend added))
    (hmanage : ∀ rule ∈ added, rule.action ≠ .manage) : (ability.extend added).ManagesAll := by
  have habout : ∀ kind, ∀ rule ∈ added, rule.isAbout .manage kind = false := by
    refine fun kind rule hrule => Bool.eq_false_iff.mpr fun habout => hmanage rule hrule ?_
    exact (Rule.isAbout_iff.mp habout).2.elim id id
  refine ⟨fun {kind entity} hallowed action => ?_, fun {kind} hpossible action => ?_⟩
  · rw [check_extend_of_not_about (habout kind)] at hallowed
    exact hgrows.allowed (h.allowed hallowed action)
  · rw [possible_extend_of_not_about (habout kind)] at hpossible
    exact hgrows.possible (h.possible hpossible action)

/-- Rules that allow without a condition allow all that one of them is about. -/
theorem check_extend_of_unconditional {kind : Kind} {action : Action}
    (hallow : ∀ rule ∈ added, rule.condition = none ∧ rule.inverted = false)
    (h : ∃ rule ∈ added, rule.isAbout action kind = true) :
    (ability.extend added).check action kind entity = .ok true := by
  obtain ⟨rule, hrule, habout⟩ := h
  rcases List.eq_nil_or_concat (added.filter (Rule.isAbout action kind)) with
    hnil | ⟨earlier, last, hlast⟩
  · exact absurd habout (List.filter_eq_nil_iff.mp hnil rule hrule)
  · -- the last of them has the last word
    rw [List.concat_eq_append] at hlast
    have hmem : last ∈ added.filter (Rule.isAbout action kind) := by
      rw [hlast]
      simp
    obtain ⟨hcondition, hallows⟩ := hallow last (List.mem_filter.mp hmem).1
    rw [check_extend_of_filter_eq_concat _ _ hlast, meets_of_unconditional hcondition, hallows]
    rfl

/-- Rules that allow without a condition keep the wildcard. -/
theorem ManagesAll.extend_of_unconditional (h : ability.ManagesAll)
    (hgrows : ability.Grows (ability.extend added))
    (hallow : ∀ rule ∈ added, rule.condition = none ∧ rule.inverted = false) :
    (ability.extend added).ManagesAll := by
  refine ⟨fun {kind entity} hallowed action => ?_, fun {kind} hpossible action => ?_⟩
  · by_cases hmanage : ∃ rule ∈ added, rule.isAbout .manage kind = true
    · obtain ⟨rule, hrule, habout⟩ := hmanage
      exact check_extend_of_unconditional hallow
        ⟨rule, hrule, Rule.isAbout_of_manage habout action⟩
    · rw [check_extend_of_not_about (by simpa using hmanage)] at hallowed
      exact hgrows.allowed (h.allowed hallowed action)
  · by_cases hmanage : ∃ rule ∈ added, rule.isAbout .manage kind = true
    · obtain ⟨rule, hrule, habout⟩ := hmanage
      exact possible_extend_of_allowing (fun rule hrule => (hallow rule hrule).2)
        ⟨rule, hrule, Rule.isAbout_of_manage habout action⟩
    · rw [possible_extend_of_not_about (by simpa using hmanage)] at hpossible
      exact hgrows.possible (h.possible hpossible action)

/-- **One step**: the wildcard is kept in whichever way rules are appended. -/
theorem managesAll_of_appends (h : ability.ManagesAll) (happends : Appends ability extended) :
    extended.ManagesAll := by
  have hgrows := grows_of_appends happends
  cases happends with
  | loan entity actions hlendable =>
    refine h.extend_of_ne_manage hgrows fun rule hrule => ?_
    obtain ⟨action, haction, rfl⟩ := List.mem_map.mp hrule
    rintro rfl
    exact absurd (hlendable .manage haction) (by decide)
  | creation kind hkind =>
    exact h.extend_of_unconditional hgrows fun rule hrule => (Rule.mem_each.mp hrule).2.2
  | features principal applicationId =>
    exact h.extend_of_unconditional hgrows fun rule hrule => mem_featureRules hrule
  | records limit principal rules hrules =>
    refine h.extend_of_ne_manage hgrows fun rule hrule hmanage => ?_
    have hproper := (hrules rule hrule).proper
    rw [hmanage] at hproper
    exact absurd hproper (by decide)

/-- **A whole run** keeps it. -/
theorem managesAll_of_appendsMany (h : ability.ManagesAll)
    (happends : AppendsMany ability extended) : extended.ManagesAll := by
  induction happends with
  | refl => exact h
  | tail _ hlast ih => exact managesAll_of_appends ih hlast

/-! ### Extended base abilities -/

/-- **An ability denies at most once, and to manage is to do everything.** Whatever the base
ability of a principal has been extended for, at most one of its rules denies. That rule is
about reading records and about nothing else, and of the records it decides about those
that were submitted through one form and are archived. What may be managed, one object or a
whole kind, may be used in every way. -/
theorem extendBy_denies_once (h : (base principal).extendBy extensions = .ok extended) :
    (extended.rules.filter (·.inverted)).length ≤ 1 ∧
    (∀ rule ∈ extended.rules, rule.inverted = true → ∃ form,
      (∀ action kind, rule.isAbout action kind = true ↔ action = .read ∧ kind = .record) ∧
      ∀ record, rule.meets (.record record) = .ok true ↔
        isSubmission form record = true ∧ record.archived.same (.flag true) = true) ∧
    (∀ kind entity, extended.check .manage kind entity = .ok true →
      ∀ action, extended.check action kind entity = .ok true) ∧
    ∀ kind, extended.possible .manage kind = true →
      ∀ action, extended.possible action kind = true := by
  have hbase : (base principal).HidesOnce := .inl denials_base
  have hhides : extended.HidesOnce := hbase.extendBy h
  have hmanages := managesAll_of_appendsMany managesAll_base (appendsMany_of_extendBy h)
  refine ⟨?_, fun rule hrule hdenies => ?_, fun _ _ hmanage => hmanages.allowed hmanage,
    fun _ hmanage => hmanages.possible hmanage⟩
  · change extended.denials.length ≤ 1
    rcases hhides with hnone | ⟨form, hform, -⟩
    · simp [hnone]
    · simp [hform]
  · have hmem : rule ∈ extended.denials := List.mem_filter.mpr ⟨hrule, hdenies⟩
    rcases hhides with hnone | ⟨form, hform, -⟩
    · rw [hnone] at hmem
      cases hmem
    · rw [hform, List.mem_singleton] at hmem
      subst hmem
      refine ⟨form, fun action kind => ?_, fun record => meets_hideArchived_iff⟩
      rw [Rule.isAbout_iff, hideArchived]
      simp [eq_comm, and_comm]

/-- A reader of the records of one form who manages the templates of an application: archived
records of the form are hidden, and with the templates everything may be done. -/
theorem extendBy_denies_once_templates :
    let role : RoleGrant :=
      { id := default
        applicationId := some default
        applicationFlags := [ApplicationFlag.manageTemplates.key] }
    let form : Entity :=
      .form
        { id := some default
          grants := [{ type := "canSeeRecords", roleId := default },
            { type := "canUpdate", roleId := ⟨2, by decide⟩ }] }
    ∃ extended, (base { userId := default, roles := [role] }).extendBy
        [.records 32 form, .features default, .records 32 form] = .ok extended ∧
      (extended.rules.filter (·.inverted)).length ≤ 1 ∧
      extended.rules.any (·.inverted) = true ∧
      ∀ action, extended.possible action .template = true := by
  intro role form
  have hcomputed : (((base { userId := default, roles := [role] }).extendBy
      [.records 32 form, .features default, .records 32 form]).toOption.any fun extended =>
        extended.rules.any (·.inverted) && extended.possible .manage .template) = true := by
    decide +kernel
  cases h : (base { userId := default, roles := [role] }).extendBy
      [.records 32 form, .features default, .records 32 form] with
  | error error =>
    rw [h] at hcomputed
    cases hcomputed
  | ok extended =>
    rw [h] at hcomputed
    obtain ⟨hdenies, hmanage⟩ := Bool.and_eq_true_iff.mp hcomputed
    obtain ⟨honce, -, -, hmanages⟩ := extendBy_denies_once h
    exact ⟨extended, rfl, honce, hdenies, hmanages .template hmanage⟩

end Ability

end Clearance
