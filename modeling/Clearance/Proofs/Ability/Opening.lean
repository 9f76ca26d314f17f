import Clearance.Proofs.Ability.Submission

/-!
# What a form opens

An ability that is extended for a form gets rules about four actions, each from one list of the
form. This file takes them action by action. What a form *adds* about an action
(`Clearance.FormRecords.Adds`) is nothing if the action is possible on records anyway or the
list gives nothing, and otherwise one rule for the records that the list *opens* it for
(`Clearance.FormRecords.Opens`). Behind the rule for reading stands the one that hides archived
records from those who cannot update the form; being asked first, it speaks before the list is
looked at (`Clearance.Ability.check_read_archived`).

From this it follows what the extended ability makes possible, that it decides about nothing
but records of the form differently, and what it newly allows on those
(`Clearance.Ability.exists_opens_of_allows`, `Clearance.Ability.allows_ne_false_of_opens`).
-/

namespace Clearance

open Outcome

namespace FormRecords

variable {limit : Int} {form : Entity} {ability : Ability} {principal : Principal}
  {action : Action} {type : PermissionType} {rules added : List Rule} {record : Record}

/-! ### Rules about one action -/

/-- The rules of a form **about one action** on its records; none are about `manage`. -/
def openingRules (limit : Int) (form : Entity) (ability : Ability) (principal : Principal) :
    Action → Except AccessError (List Rule)
  | .create => (creationRules limit form ability principal).mapError .rule
  | .read => readingRules limit form ability principal
  | .update => (changingRules limit form ability principal .update .canUpdateRecords).mapError .rule
  | .delete => (changingRules limit form ability principal .delete .canDeleteRecords).mapError .rule
  | .manage => .ok []

/-- The list of a form that decides about an action on its records, that of creating them
included. -/
def listFor? : Action → Option PermissionType
  | .create => some .canCreateRecords
  | action => recordType? action

/-- A form **opens** an action to a principal, for those of its records that meet a condition:
its list gives them. A list for creating records whose rule no record meets opens nothing. -/
structure Opens (limit : Int) (principal : Principal) (form : Entity) (action : Action)
    (access : Condition) : Prop where
  /-- The list for the action gives the records. -/
  given : ∃ type, listFor? action = some type ∧
    Listing.recordAccess limit form.grants type principal = .ok (some access)
  /-- Something may be created. -/
  creatable : action = .create → access.isNothing = false

/-- The rules that a form **adds** about an action. -/
inductive Adds (limit : Int) (form : Entity) (ability : Ability) (principal : Principal)
    (action : Action) : List Rule → Prop
  /-- None if the action is possible anyway. -/
  | possible (h : ability.possible action .record = true) :
      Adds limit form ability principal action []
  /-- None if its list gives nothing, or, to create, something that no record meets. -/
  | closed (hpossible : ability.possible action .record = false)
      (h : ∀ type, listFor? action = some type → ∃ found,
        Listing.recordAccess limit form.grants type principal = .ok found ∧
          ∀ access ∈ found, action = .create ∧ access.isNothing = true) :
      Adds limit form ability principal action []
  /-- One for the records that it is opened for. -/
  | opened (access : Condition) (hpossible : ability.possible action .record = false)
      (h : Opens limit principal form action access)
      (hshown : action = .read → ability.allows .update form = .ok true) :
      Adds limit form ability principal action
        (Rule.allow [action] [.record] (some (restricted form access)))
  /-- If the form may not be updated, the rule that hides archived records stands behind the
  one for reading. -/
  | hidden (access : Condition) (hpossible : ability.possible action .record = false)
      (h : Opens limit principal form action access) (hread : action = .read)
      (hupdate : ability.allows .update form = .ok false) :
      Adds limit form ability principal action
        (Rule.allow [action] [.record] (some (restricted form access)) ++ [hideArchived form])

theorem adds_of_creationRules (h : creationRules limit form ability principal = .ok rules) :
    Adds limit form ability principal .create rules := by
  rcases creationRules_cases h with
    ⟨hpossible, rfl⟩ |
      ⟨hpossible, ⟨found, hfound, hnothing, rfl⟩ | ⟨access, haccess, hnothing, rfl⟩⟩
  · exact .possible hpossible
  · refine .closed hpossible fun type htype => ?_
    obtain rfl := Option.some.inj htype
    exact ⟨found, hfound, fun access haccess => ⟨rfl, hnothing access haccess⟩⟩
  · exact .opened access hpossible ⟨⟨_, rfl, haccess⟩, fun _ => hnothing⟩ (fun h => nomatch h)

theorem adds_of_readingRules (h : readingRules limit form ability principal = .ok rules) :
    Adds limit form ability principal .read rules := by
  rcases readingRules_cases h with
    ⟨hpossible, rfl⟩ | ⟨hpossible, ⟨hnone, rfl⟩ | ⟨access, mayUpdate, haccess, hupdate, rfl⟩⟩
  · exact .possible hpossible
  · refine .closed hpossible fun type htype => ?_
    obtain rfl := Option.some.inj htype
    exact ⟨none, hnone, by simp⟩
  · have hopens : Opens limit principal form .read access :=
      ⟨⟨_, rfl, haccess⟩, fun h => nomatch h⟩
    cases mayUpdate with
    | true => simpa using Adds.opened access hpossible hopens fun _ => hupdate
    | false => exact .hidden access hpossible hopens rfl hupdate

theorem adds_of_changingRules (hchanges : action ≠ .create ∧ action ≠ .read)
    (htype : listFor? action = some type)
    (h : changingRules limit form ability principal action type = .ok rules) :
    Adds limit form ability principal action rules := by
  rcases changingRules_cases h with
    ⟨hpossible, rfl⟩ | ⟨hpossible, ⟨hnone, rfl⟩ | ⟨access, haccess, rfl⟩⟩
  · exact .possible hpossible
  · refine .closed hpossible fun other hother => ?_
    obtain rfl := Option.some.inj (htype.symm.trans hother)
    exact ⟨none, hnone, by simp⟩
  · have hopens : Opens limit principal form action access :=
      ⟨⟨type, htype, haccess⟩, fun h => absurd h hchanges.1⟩
    exact .opened access hpossible hopens fun h => absurd h hchanges.2

/-- **The rules about an action** are those that the form adds. -/
theorem adds_of_openingRules (h : openingRules limit form ability principal action = .ok rules) :
    Adds limit form ability principal action rules := by
  cases action with
  | create => exact adds_of_creationRules (mapError_eq_ok.mp h)
  | read => exact adds_of_readingRules h
  | update => exact adds_of_changingRules (by decide) rfl (mapError_eq_ok.mp h)
  | delete => exact adds_of_changingRules (by decide) rfl (mapError_eq_ok.mp h)
  | manage =>
    obtain rfl := Except.ok.inj h
    cases hpossible : ability.possible .manage .record with
    | true => exact .possible hpossible
    | false => exact .closed hpossible fun type htype => nomatch htype

/-- They are about no other action, and about records of the form only. -/
theorem Adds.of_mem (h : Adds limit form ability principal action rules) {rule : Rule}
    (hrule : rule ∈ rules) : rule.action = action ∧ rule.kind = .record ∧
      ∃ access, rule.condition = some (restricted form access) := by
  cases h with
  | possible _ => cases hrule
  | closed _ _ => cases hrule
  | opened access _ _ _ =>
    obtain ⟨haction, hkind, hcondition, -⟩ := Rule.mem_each.mp hrule
    exact ⟨List.mem_singleton.mp haction, List.mem_singleton.mp hkind, access, hcondition⟩
  | hidden access _ _ hread _ =>
    rcases List.mem_append.mp hrule with hallow | hhide
    · obtain ⟨haction, hkind, hcondition, -⟩ := Rule.mem_each.mp hallow
      exact ⟨List.mem_singleton.mp haction, List.mem_singleton.mp hkind, access, hcondition⟩
    · obtain rfl := List.mem_singleton.mp hhide
      exact ⟨hread.symm, rfl, _, rfl⟩

theorem Adds.eq_nil_of_manage (h : Adds limit form ability principal .manage rules) :
    rules = [] := by
  cases h with
  | possible _ => rfl
  | closed _ _ => rfl
  | opened _ _ hopens _ => exact nomatch hopens.given
  | hidden _ _ _ hread _ => exact nomatch hread

/-- Of the rules about one action none is about another. -/
theorem Adds.filter_isAbout (h : Adds limit form ability principal action rules) (other : Action) :
    rules.filter (Rule.isAbout other .record) = if action = other then rules else [] := by
  rcases eq_or_ne action .manage with rfl | hmanage
  · obtain rfl := h.eq_nil_of_manage
    simp
  · have habout : ∀ rule ∈ rules, rule.isAbout other .record = decide (action = other) := by
      intro rule hrule
      obtain ⟨rfl, hkind, -⟩ := h.of_mem hrule
      rw [Bool.eq_iff_iff, Rule.isAbout, Rule.appliesTo, hkind]
      simp [hmanage]
    split
    · next heq => exact List.filter_eq_self.mpr fun rule hrule => by simp [habout rule hrule, heq]
    · next hne =>
      exact List.filter_eq_nil_iff.mpr fun rule hrule => by simp [habout rule hrule, hne]

/-- **Of the rules of a form those about an action decide about it.** -/
theorem filter_rules (h : FormRecords.rules limit form ability principal = .ok added)
    (action : Action) : ∃ about, openingRules limit form ability principal action = .ok about ∧
      added.filter (Rule.isAbout action .record) = about := by
  obtain ⟨creation, hcreation, h⟩ := bind_eq_ok.mp h
  obtain ⟨reading, hreading, h⟩ := bind_eq_ok.mp h
  obtain ⟨updating, hupdating, h⟩ := bind_eq_ok.mp h
  obtain ⟨deleting, hdeleting, h⟩ := bind_eq_ok.mp h
  obtain rfl := Except.ok.inj h
  have hfilter :
      (creation ++ reading ++ updating ++ deleting).filter (Rule.isAbout action .record) =
      (if .create = action then creation else []) ++ (if .read = action then reading else []) ++
        (if .update = action then updating else []) ++
        (if .delete = action then deleting else []) := by
    simp only [List.filter_append]
    rw [(adds_of_creationRules (mapError_eq_ok.mp hcreation)).filter_isAbout,
      (adds_of_readingRules hreading).filter_isAbout,
      (adds_of_changingRules (by decide) rfl (mapError_eq_ok.mp hupdating)).filter_isAbout,
      (adds_of_changingRules (by decide) rfl (mapError_eq_ok.mp hdeleting)).filter_isAbout]
  rw [hfilter]
  cases action with
  | create => exact ⟨creation, hcreation, by simp⟩
  | read => exact ⟨reading, hreading, by simp⟩
  | update => exact ⟨updating, hupdating, by simp⟩
  | delete => exact ⟨deleting, hdeleting, by simp⟩
  | manage => exact ⟨[], rfl, by simp⟩

/-- **The rules of a form decline** on the records of others. -/
theorem Adds.declines (h : Adds limit form ability principal action rules)
    (hother : isSubmission form record = false) :
    ∀ rule ∈ rules, rule.meets (.record record) = .ok false := by
  intro rule hrule
  obtain ⟨-, -, access, hcondition⟩ := h.of_mem hrule
  rw [Rule.meets, hcondition]
  dsimp only
  rw [check_restricted, hother, if_neg Bool.false_ne_true]

/-- A list that gives nothing opens nothing. -/
theorem not_opens (h : ∀ type, listFor? action = some type → ∃ found,
      Listing.recordAccess limit form.grants type principal = .ok found ∧
        ∀ access ∈ found, action = .create ∧ access.isNothing = true) (access : Condition) :
    ¬ Opens limit principal form action access := by
  rintro ⟨⟨type, htype, haccess⟩, hcreatable⟩
  obtain ⟨found, hfound, hnothing⟩ := h type htype
  obtain rfl := Except.ok.inj (hfound.symm.trans haccess)
  obtain ⟨hcreate, hempty⟩ := hnothing access rfl
  exact Bool.noConfusion ((hcreatable hcreate).symm.trans hempty)

/-- What a form opens becomes possible; a rule that hides some records does not change it. -/
theorem Adds.possible_iff (h : Adds limit form ability principal action rules) :
    (match rules.reverse.find? Rule.decidesKind with
      | some rule => !rule.inverted
      | none => ability.possible action .record) = true ↔
    ability.possible action .record = true ∨
      ∃ access, Opens limit principal form action access := by
  cases h with
  | possible h => simp [h]
  | closed hpossible h => simp [hpossible, not_opens h]
  | opened access _ hopens _ =>
    refine iff_of_true ?_ (.inr ⟨access, hopens⟩)
    simp [Rule.allow, Rule.each, Rule.decidesKind]
  | hidden access _ hopens _ _ =>
    refine iff_of_true ?_ (.inr ⟨access, hopens⟩)
    simp [Rule.allow, Rule.each, Rule.decidesKind, hideArchived]

end FormRecords

namespace Ability

open FormRecords

variable {limit : Int} {form : Entity} {ability extended : Ability} {principal : Principal}
  {action : Action} {access : Condition} {record : Record}

/-! ### The extended ability -/

/-- The rules that an extension for a form adds, and those of them about one action. -/
theorem exists_adds (hprincipal : ability.principal = some principal)
    (h : ability.extendForRecords limit form = .ok extended) :
    ∃ added, extended = ability.extend added ∧ (∀ rule ∈ added, rule.kind = .record) ∧
      ∀ action, ∃ rules, openingRules limit form ability principal action = .ok rules ∧
        added.filter (Rule.isAbout action .record) = rules := by
  rw [extendForRecords, hprincipal] at h
  obtain ⟨added, hadded, rfl⟩ := map_eq_ok.mp h
  exact ⟨added, rfl, fun rule hrule => (derives_of_rules hadded rule hrule).kind,
    filter_rules hadded⟩

/-- **What is possible** on records afterwards: what was, and what the form opens. -/
theorem possible_extendForRecords (hprincipal : ability.principal = some principal)
    (h : ability.extendForRecords limit form = .ok extended) :
    extended.possible action .record = true ↔
      ability.possible action .record = true ∨
        ∃ access, Opens limit principal form action access := by
  obtain ⟨added, rfl, -, habout⟩ := exists_adds hprincipal h
  obtain ⟨rules, hrules, hfilter⟩ := habout action
  rw [possible_extend, hfilter]
  exact (adds_of_openingRules hrules).possible_iff

/-- About the records of other forms an extension changes nothing. -/
theorem allows_of_not_submission (hprincipal : ability.principal = some principal)
    (h : ability.extendForRecords limit form = .ok extended)
    (hother : isSubmission form record = false) :
    extended.allows action (.record record) = ability.allows action (.record record) := by
  obtain ⟨added, rfl, -, habout⟩ := exists_adds hprincipal h
  obtain ⟨rules, hrules, hfilter⟩ := habout action
  have hdeclines := (adds_of_openingRules hrules).declines hother
  have hnone : Rule.firstDeciding (.record record) rules.reverse = .ok none :=
    Rule.firstDeciding_eq_none_iff.mpr fun rule hrule => hdeclines rule (List.mem_reverse.mp hrule)
  rw [allows, Entity.kind, check_extend, hfilter, hnone]
  rfl

/-- Rules about records leave other kinds alone. -/
theorem isAbout_eq_false_of_record {added : List Rule}
    (hkinds : ∀ rule ∈ added, rule.kind = .record) {kind : Kind} (hkind : kind ≠ .record) :
    ∀ rule ∈ added, rule.isAbout action kind = false := by
  intro rule hrule
  simp [Rule.isAbout, hkinds rule hrule, hkind.symm]

/-- Nor does it about what is no record. -/
theorem allows_of_kind_ne (hprincipal : ability.principal = some principal)
    (h : ability.extendForRecords limit form = .ok extended) {entity : Entity}
    (hkind : entity.kind ≠ .record) :
    extended.allows action entity = ability.allows action entity := by
  obtain ⟨added, rfl, hrecord, -⟩ := exists_adds hprincipal h
  exact check_extend_of_not_about (isAbout_eq_false_of_record hrecord hkind)

/-! ### Records of the form -/

/-- The answer of what is **asked first**, or another one if that declines. -/
def askedFirst (answer before : Except Fault Bool) : Except Fault Bool :=
  match answer with
  | .ok false => before
  | answer => answer

@[simp] theorem askedFirst_false (before : Except Fault Bool) :
    askedFirst (.ok false) before = before :=
  rfl

theorem askedFirst_of_ne {answer before : Except Fault Bool} (h : answer ≠ .ok false) :
    askedFirst answer before = answer := by
  rcases answer with fault | _ | _
  · rfl
  · exact absurd rfl h
  · rfl

theorem askedFirst_eq_true_iff {answer before : Except Fault Bool} :
    askedFirst answer before = .ok true ↔
      answer = .ok true ∨ answer = .ok false ∧ before = .ok true := by
  rcases answer with fault | _ | _ <;> simp [askedFirst]

/-- A condition under which an action is allowed on records is asked before the ability. -/
theorem allows_allow {added : List Rule} {condition : Condition}
    (hadded : added.filter (Rule.isAbout action .record) =
      Rule.allow [action] [.record] (some condition)) :
    (ability.extend added).allows action (.record record) =
      askedFirst (condition.check (.record record)) (ability.allows action (.record record)) := by
  have hconcat : added.filter (Rule.isAbout action .record) =
      [] ++ [{ action := action, kind := .record, condition := some condition }] := hadded
  rw [allows, Entity.kind, check_extend_of_filter_eq_concat _ _ hconcat, Rule.meets]
  dsimp only
  rcases condition.check (.record record) with fault | _ | _ <;> rfl

/-- So is what a form gives, on its records, -/
theorem allows_opened {added : List Rule} (hsubmission : isSubmission form record = true)
    (hadded : added.filter (Rule.isAbout action .record) =
      Rule.allow [action] [.record] (some (restricted form access))) :
    (ability.extend added).allows action (.record record) =
      askedFirst (access.check (.record record)) (ability.allows action (.record record)) := by
  rw [allows_allow hadded, check_restricted, if_pos hsubmission]

/-- and the rule that hides archived records before that. -/
theorem allows_hidden {added : List Rule} (hsubmission : isSubmission form record = true)
    (hadded : added.filter (Rule.isAbout action .record) =
      Rule.allow [action] [.record] (some (restricted form access)) ++ [hideArchived form]) :
    (ability.extend added).allows action (.record record) =
      match (hideArchived form).meets (.record record) with
      | .error fault => .error fault
      | .ok true => .ok false
      | .ok false =>
        askedFirst (access.check (.record record)) (ability.allows action (.record record)) := by
  have hrules : (Rule.allow [action] [.record] (some (restricted form access))).reverse =
      [{ action := action, kind := .record, condition := some (restricted form access) }] := rfl
  have hopened : Rule.meets (.record record)
      { action := action, kind := .record, condition := some (restricted form access) } =
        access.check (.record record) := by
    rw [Rule.meets]
    dsimp only
    rw [check_restricted, if_pos hsubmission]
  rw [allows, Entity.kind, check_extend_of_filter_eq_concat _ _ hadded, hrules,
    Rule.firstDeciding_cons, hopened]
  rcases (hideArchived form).meets (.record record) with fault | _ | _
  · rfl
  · rcases access.check (.record record) with fault | _ | _ <;> rfl
  · rfl

/-- **What an extension newly allows**: on a record of the form, what the form opens, unless the
record is archived and those are hidden. -/
theorem exists_opens_of_allows (hprincipal : ability.principal = some principal)
    (h : ability.extendForRecords limit form = .ok extended)
    (hpossible : ability.possible action .record = false)
    (hallows : extended.allows action (.record record) = .ok true) :
    isSubmission form record = true ∧ ∃ access, Opens limit principal form action access ∧
      access.check (.record record) = .ok true ∧
      (action = .read → ability.allows .update form = .ok false →
        (hideArchived form).meets (.record record) = .ok false) := by
  have hbefore : ability.check action .record (.record record) ≠ .ok true :=
    check_ne_true_of_not_possible hpossible
  have hsubmission : isSubmission form record = true := by
    refine Bool.of_not_eq_false fun hother => hbefore ?_
    rw [allows_of_not_submission hprincipal h hother] at hallows
    exact hallows
  refine ⟨hsubmission, ?_⟩
  obtain ⟨added, rfl, -, habout⟩ := exists_adds hprincipal h
  obtain ⟨rules, hrules, hfilter⟩ := habout action
  cases adds_of_openingRules hrules with
  | possible htrue => exact Bool.noConfusion (hpossible.symm.trans htrue)
  | closed _ _ =>
    rw [allows, Entity.kind, check_extend, hfilter] at hallows
    exact absurd hallows hbefore
  | opened access _ hopens hshown =>
    rw [allows_opened hsubmission hfilter, askedFirst_eq_true_iff] at hallows
    refine ⟨access, hopens, hallows.resolve_right fun hother => hbefore hother.2,
      fun hread hupdate => ?_⟩
    cases hupdate.symm.trans (hshown hread)
  | hidden access _ hopens hread hupdate =>
    rw [allows_hidden hsubmission hfilter] at hallows
    split at hallows
    · cases hallows
    · cases hallows
    · next hshown =>
      rw [askedFirst_eq_true_iff] at hallows
      exact ⟨access, hopens, hallows.resolve_right fun hother => hbefore hother.2,
        fun _ _ => hshown⟩

/-- **What a form opens** is asked on its records before the ability, unless they are archived and
hidden. -/
theorem allows_of_opens (hprincipal : ability.principal = some principal)
    (h : ability.extendForRecords limit form = .ok extended)
    (hpossible : ability.possible action .record = false)
    (hsubmission : isSubmission form record = true)
    (hopens : Opens limit principal form action access)
    (hshown : action = .read → ability.allows .update form = .ok false →
      (hideArchived form).meets (.record record) = .ok false) :
    extended.allows action (.record record) =
      askedFirst (access.check (.record record)) (ability.allows action (.record record)) := by
  have hsame : ∀ found, Opens limit principal form action found → found = access := by
    rintro found ⟨⟨type, htype, haccess⟩, -⟩
    obtain ⟨⟨other, hother, haccessOther⟩, -⟩ := hopens
    obtain rfl := Option.some.inj (htype.symm.trans hother)
    exact Option.some.inj (Except.ok.inj (haccess.symm.trans haccessOther))
  obtain ⟨added, rfl, -, habout⟩ := exists_adds hprincipal h
  obtain ⟨rules, hrules, hfilter⟩ := habout action
  cases adds_of_openingRules hrules with
  | possible htrue => exact Bool.noConfusion (hpossible.symm.trans htrue)
  | closed _ hclosed => exact absurd hopens (not_opens hclosed access)
  | opened found _ hfound _ =>
    obtain rfl := hsame found hfound
    exact allows_opened hsubmission hfilter
  | hidden found _ hfound hread hupdate =>
    obtain rfl := hsame found hfound
    rw [allows_hidden hsubmission hfilter, hshown hread hupdate]

/-- So it is not refused. -/
theorem allows_ne_false_of_opens (hprincipal : ability.principal = some principal)
    (h : ability.extendForRecords limit form = .ok extended)
    (hpossible : ability.possible action .record = false)
    (hsubmission : isSubmission form record = true)
    (hopens : Opens limit principal form action access)
    (hcheck : access.check (.record record) ≠ .ok false)
    (hshown : action = .read → ability.allows .update form = .ok false →
      (hideArchived form).meets (.record record) = .ok false) :
    extended.allows action (.record record) ≠ .ok false := by
  rwa [allows_of_opens hprincipal h hpossible hsubmission hopens hshown, askedFirst_of_ne hcheck]

/-- **Archived records stay hidden** from those who cannot update the form: whatever its list
gives, the ability decides as it did before, or it refuses. -/
theorem check_read_archived (h : ability.extendForRecords limit form = .ok extended)
    (hupdate : ability.allows .update form = .ok false)
    (hform : isSubmission form record = true)
    (harchived : record.archived = .flag true) :
    extended.check .read .record (.record record) = ability.check .read .record (.record record) ∨
      extended.check .read .record (.record record) = .ok false := by
  rw [extendForRecords] at h
  split at h
  · exact .inl (by rw [Except.ok.inj h])
  · obtain ⟨added, hadded, rfl⟩ := map_eq_ok.mp h
    obtain ⟨reading, hreading, hfilter⟩ := filter_rules hadded .read
    cases adds_of_openingRules hreading with
    | possible _ => exact .inl (by rw [check_extend, hfilter]; rfl)
    | closed _ _ => exact .inl (by rw [check_extend, hfilter]; rfl)
    | opened _ _ _ hshown => cases hupdate.symm.trans (hshown rfl)
    | hidden _ _ _ _ _ =>
      -- the rule added last is asked first, and it denies
      right
      rw [check_extend_of_filter_eq_concat _ _ hfilter,
        meets_hideArchived hform harchived]
      rfl

end Ability

end Clearance
