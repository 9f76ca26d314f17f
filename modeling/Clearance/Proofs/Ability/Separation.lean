import Clearance.Proofs.Ability.Growth
import Clearance.Proofs.Ability.Opening
import Clearance.Proofs.Ability.Openness
import Clearance.Proofs.Identifier.Text

/-!
# Forms one after the other

The rules that a form adds are restricted to its own records, so that they decline on the
records of any other form. Still two forms do not leave each other alone. What an extension
looks at before it adds a rule is whether the action is possible on records, and there the
rules of the first form count, though they have conditions. The second form is heard about an
action only if the first did not open it (`Clearance.Ability.extendForRecords_after`).

To whom both forms give their records for reading reads those of the first only, once the
ability is extended for it before it is for the second
(`Clearance.Ability.extendForRecords_unheard`).
-/

namespace Clearance

open Outcome

namespace FormRecords

variable {limit : Int} {form other : Entity} {ability extended : Ability} {principal : Principal}
  {action : Action} {added rules : List Rule} {record : Record}

/-! ### What is looked at -/

/-- An action that is possible is left alone. -/
theorem openingRules_of_possible (h : ability.possible action .record = true) :
    openingRules limit form ability principal action = .ok [] := by
  cases action with
  | create => rw [openingRules, creationRules, if_pos h, mapError_ok]
  | read => rw [openingRules, readingRules, if_pos h]; rfl
  | update | delete => rw [openingRules, changingRules, if_pos h, mapError_ok]
  | manage => rfl

/-- **What is looked at**: two abilities that agree whether the action is possible on records
and whether the form may be updated get the same rules about it. -/
theorem openingRules_congr
    (hpossible : extended.possible action .record = ability.possible action .record)
    (hupdate : extended.allows .update form = ability.allows .update form) :
    openingRules limit form extended principal action =
      openingRules limit form ability principal action := by
  cases action with
  | create => rw [openingRules, openingRules, creationRules, creationRules, hpossible]
  | read => rw [openingRules, openingRules, readingRules, readingRules, hpossible, hupdate]
  | update | delete => rw [openingRules, openingRules, changingRules, changingRules, hpossible]
  | manage => rfl

/-- The rules of a form are there if those about each action are. -/
theorem exists_rules_of_openingRules
    (h : ∀ action, ∃ rules, openingRules limit form ability principal action = .ok rules) :
    ∃ added, FormRecords.rules limit form ability principal = .ok added := by
  obtain ⟨creation, hcreation⟩ := h .create
  obtain ⟨reading, hreading⟩ := h .read
  obtain ⟨updating, hupdating⟩ := h .update
  obtain ⟨deleting, hdeleting⟩ := h .delete
  simp only [openingRules] at hcreation hreading hupdating hdeleting
  rw [FormRecords.rules, hcreation, hreading, hupdating, hdeleting]
  exact ⟨_, rfl⟩

/-! ### Records of other forms -/

/-- A record was submitted through one form. -/
theorem isSubmission_eq_false (hne : form.id ≠ other.id) (h : isSubmission other record = true) :
    isSubmission form record = false := by
  rw [isSubmission, Bool.and_eq_true, beq_iff_eq] at h
  rw [isSubmission, h.2]
  simp [hne.symm]

end FormRecords

namespace Ability

open FormRecords

variable {limit : Int} {form other : Entity} {ability extended : Ability} {principal : Principal}
  {action : Action} {record : Record}

/-! ### One form -/

/-- Also on its own records it changes nothing about an action that is possible. -/
theorem allows_of_possible (hprincipal : ability.principal = some principal)
    (h : ability.extendForRecords limit form = .ok extended)
    (hpossible : ability.possible action .record = true) :
    extended.allows action (.record record) = ability.allows action (.record record) := by
  obtain ⟨added, rfl, -, habout⟩ := exists_adds hprincipal h
  obtain ⟨rules, hrules, hfilter⟩ := habout action
  obtain rfl := Except.ok.inj ((openingRules_of_possible hpossible).symm.trans hrules)
  rw [allows, Entity.kind, check_extend, hfilter]
  rfl

/-! ### Two forms -/

variable {first second both : Ability}

/-- A form that adds the same rules to two abilities keeps them in agreement. -/
theorem allows_eq_of_openingRules_eq (hfirstPrincipal : first.principal = some principal)
    (hprincipal : ability.principal = some principal)
    (hboth : first.extendForRecords limit form = .ok both)
    (hsecond : ability.extendForRecords limit form = .ok second)
    (hrules : openingRules limit form first principal action =
      openingRules limit form ability principal action)
    (hallows : first.allows action (.record record) = ability.allows action (.record record)) :
    both.allows action (.record record) = second.allows action (.record record) := by
  obtain ⟨added, rfl, -, habout⟩ := exists_adds hfirstPrincipal hboth
  obtain ⟨addedAlone, rfl, -, haboutAlone⟩ := exists_adds hprincipal hsecond
  obtain ⟨rules, hadds, hfilter⟩ := habout action
  obtain ⟨rulesAlone, haddsAlone, hfilterAlone⟩ := haboutAlone action
  obtain rfl := Except.ok.inj (hadds.symm.trans (hrules.trans haddsAlone))
  rw [allows, Entity.kind] at hallows
  rw [allows, allows, Entity.kind, check_extend, check_extend, hfilter, hfilterAlone, hallows]
  rfl

/-- What the first form did not open, the second is asked about as if it was alone. -/
theorem openingRules_eq_after (hprincipal : ability.principal = some principal)
    (hkind : other.kind = .form) (hfirst : ability.extendForRecords limit form = .ok first)
    (hpossible : first.possible action .record = false) :
    openingRules limit other first principal action =
      openingRules limit other ability principal action := by
  have hbefore : ability.possible action .record = false := by
    refine Bool.eq_false_iff.mpr fun h => ?_
    exact Bool.noConfusion
      (hpossible.symm.trans ((possible_extendForRecords hprincipal hfirst).mpr (.inl h)))
  have hupdate : first.allows .update other = ability.allows .update other :=
    allows_of_kind_ne hprincipal hfirst (by rw [hkind]; decide)
  exact openingRules_congr (hpossible.trans hbefore.symm) hupdate

/-- An ability is extended for a form after another if it is for that form alone. -/
theorem exists_extendForRecords_after (hprincipal : ability.principal = some principal)
    (hfirstPrincipal : first.principal = some principal)
    (hkind : other.kind = .form) (hfirst : ability.extendForRecords limit form = .ok first)
    (hsecond : ability.extendForRecords limit other = .ok second) :
    ∃ both, first.extendForRecords limit other = .ok both := by
  obtain ⟨added, -, -, habout⟩ := exists_adds hprincipal hsecond
  have hrules : ∀ action, ∃ rules, openingRules limit other first principal action = .ok rules := by
    intro action
    cases hpossible : first.possible action .record with
    | true => exact ⟨[], openingRules_of_possible hpossible⟩
    | false =>
      obtain ⟨rules, hrules, -⟩ := habout action
      exact ⟨rules, (openingRules_eq_after hprincipal hkind hfirst hpossible).trans hrules⟩
  obtain ⟨added, hadded⟩ := exists_rules_of_openingRules hrules
  rw [extendForRecords, hfirstPrincipal]
  simp only [hadded]
  exact ⟨_, rfl⟩

/-- An action is **opened** for an ability by a form if no record could be acted on before and
the form opens it, under some condition, to the principal. -/
structure IsOpenedBy (limit : Int) (ability : Ability) (form : Entity) (action : Action) :
    Prop where
  /-- No record could be acted on before. -/
  closed : ability.possible action .record = false
  /-- The form opens the action. -/
  opens : ∃ principal access, ability.principal = some principal ∧
    Opens limit principal form action access

theorem possible_of_isOpenedBy (hfirst : ability.extendForRecords limit form = .ok first)
    (h : ability.IsOpenedBy limit form action) : first.possible action .record = true := by
  obtain ⟨principal, access, hprincipal, hopens⟩ := h.opens
  exact (possible_extendForRecords hprincipal hfirst).mpr (.inr ⟨access, hopens⟩)

/-- What has become possible on records has been opened. -/
theorem isOpenedBy_of_possible (hprincipal : ability.principal = some principal)
    (hfirst : ability.extendForRecords limit form = .ok first)
    (hwas : ability.possible action .record = false)
    (hopen : first.possible action .record = true) : ability.IsOpenedBy limit form action := by
  rcases (possible_extendForRecords hprincipal hfirst).mp hopen with hpossible | ⟨access, hopens⟩
  · exact Bool.noConfusion (hwas.symm.trans hpossible)
  · exact ⟨hwas, principal, access, hprincipal, hopens⟩

/-- **One form after the other.** Let an ability be extended for a form, and then for one with
another identifier. If the first form opens an action, the second is not heard about it: on the
records of the second form the decision is the old one, and that is not to allow it. About all
other actions the decision is that of the second form alone. -/
theorem extendForRecords_after (hne : form.id ≠ other.id) (hkind : other.kind = .form)
    (hfirst : ability.extendForRecords limit form = .ok first)
    (hsecond : ability.extendForRecords limit other = .ok second) :
    ∃ both, first.extendForRecords limit other = .ok both ∧
      ∀ (action : Action) (record : Record), isSubmission other record = true →
        (ability.IsOpenedBy limit form action →
          both.allows action (.record record) = ability.allows action (.record record) ∧
          both.allows action (.record record) ≠ .ok true) ∧
        (¬ ability.IsOpenedBy limit form action →
          both.allows action (.record record) = second.allows action (.record record)) := by
  cases hprincipal : ability.principal with
  | none =>
    -- nobody is given anything
    have hkeeps : ∀ form, ability.extendForRecords limit form = .ok ability := by
      intro form
      rw [extendForRecords, hprincipal]
    obtain rfl := Except.ok.inj ((hkeeps form).symm.trans hfirst)
    obtain rfl := Except.ok.inj ((hkeeps other).symm.trans hsecond)
    refine ⟨ability, hkeeps other, fun action record _ => ⟨fun hopened => ?_, fun _ => rfl⟩⟩
    obtain ⟨principal, -, hsome, -⟩ := hopened.opens
    cases hprincipal.symm.trans hsome
  | some principal =>
    have hfirstPrincipal : first.principal = some principal :=
      (grows_of_appendsMany (appendsMany_of_extendForRecords hfirst)).principal.trans hprincipal
    obtain ⟨both, hboth⟩ :=
      exists_extendForRecords_after hprincipal hfirstPrincipal hkind hfirst hsecond
    refine ⟨both, hboth, fun action record hsubmission => ?_⟩
    -- the rules of the first form decline on the record
    have hbefore : first.allows action (.record record) = ability.allows action (.record record) :=
      allows_of_not_submission hprincipal hfirst (isSubmission_eq_false hne hsubmission)
    have hunheard : first.possible action .record = true →
        both.allows action (.record record) = ability.allows action (.record record) :=
      fun hopen => (allows_of_possible hfirstPrincipal hboth hopen).trans hbefore
    constructor
    · intro hopened
      have hold := hunheard (possible_of_isOpenedBy hfirst hopened)
      exact ⟨hold, hold ▸ check_ne_true_of_not_possible hopened.closed⟩
    · intro hopened
      cases hopen : first.possible action .record with
      | false =>
        exact allows_eq_of_openingRules_eq hfirstPrincipal hprincipal hboth hsecond
          (openingRules_eq_after hprincipal hkind hfirst hopen) hbefore
      | true =>
        -- the action was possible before, so the second form adds nothing about it either way
        have hwas : ability.possible action .record = true := by
          refine Bool.of_not_eq_false fun hwas => ?_
          exact hopened (isOpenedBy_of_possible hprincipal hfirst hwas hopen)
        rw [hunheard hopen, allows_of_possible hprincipal hsecond hwas]

/-- A form that lists a role under some permission types, without rules. -/
def formListing (id : Uuid) (types : List PermissionType) : Entity :=
  .form { id := some id, grants := types.map fun type => { type := type.key, roleId := 2 } }

theorem rulesParse_formListing {id : Uuid} {types : List PermissionType} :
    RulesParse limit principal (formListing id types) := by
  refine rulesParse_of_no_rules fun grant hgrant => ?_
  obtain ⟨type, -, rfl⟩ := List.mem_map.mp hgrant
  rfl

/-- Two forms let a principal read their records, and the second lets it update them, too. After
the first the second is heard about updating its records, and not about reading them. -/
theorem extendForRecords_after_update :
    let principal : Principal := { userId := 1, roles := [{ id := 2 }] }
    let other := formListing 4 [.canSeeRecords, .canUpdateRecords]
    ∃ first second both,
      (base principal).extendForRecords 32 (formListing 3 [.canSeeRecords]) = .ok first ∧
      (base principal).extendForRecords 32 other = .ok second ∧
      first.extendForRecords 32 other = .ok both ∧
      ∀ record, isSubmission other record = true →
        both.allows .read (.record record) ≠ .ok true ∧
        both.allows .update (.record record) = second.allows .update (.record record) := by
  intro principal other
  have hextends : ∀ id types, ∃ extended,
      (base principal).extendForRecords 32 (formListing id types) = .ok extended := by
    intro id types
    exact exists_extendForRecords rfl rulesParse_formListing exists_check_base
  obtain ⟨first, hfirst⟩ := hextends 3 [.canSeeRecords]
  obtain ⟨second, hsecond⟩ := hextends 4 [.canSeeRecords, .canUpdateRecords]
  obtain ⟨both, hboth, hallows⟩ := extendForRecords_after (by decide) rfl hfirst hsecond
  refine ⟨first, second, both, hfirst, hsecond, hboth, fun record hsubmission => ⟨?_, ?_⟩⟩
  · have hopened : (base principal).IsOpenedBy 32 (formListing 3 [.canSeeRecords]) .read :=
      ⟨by decide, principal, .everything, rfl, ⟨.canSeeRecords, rfl, rfl⟩, fun h => nomatch h⟩
    exact ((hallows .read record hsubmission).1 hopened).2
  · have hunopened :
        ¬ (base principal).IsOpenedBy 32 (formListing 3 [.canSeeRecords]) .update := by
      rintro ⟨-, other, access, hother, ⟨type, htype, haccess⟩, -⟩
      obtain rfl := Option.some.inj hother
      obtain rfl := Option.some.inj htype
      exact nomatch (rfl : Listing.recordAccess 32 _ _ _ = .ok none).symm.trans haccess
    exact (hallows .update record hsubmission).2 hunopened

/-- **A form is not heard** about reading its records, which it gives to a principal, once the
ability has been extended for another form that gives it records for reading. -/
theorem extendForRecords_unheard :
    let principal : Principal := { userId := 1, roles := [{ id := 2 }] }
    let form := formListing 3 [.canSeeRecords]
    let other := formListing 4 [.canSeeRecords]
    let record : Record := { id := some 5, formId := some 4 }
    (form.id ≠ other.id ∧ form.kind = .form ∧ other.kind = .form ∧
      isSubmission other record = true) ∧
    ((base principal).extendForRecords 32 other).toOption.map (·.allows .read (.record record)) =
      some (.ok true) ∧
    ((base principal).extendForRecords 32 form >>= (·.extendForRecords 32 other)).toOption.map
      (·.allows .read (.record record)) = some (.ok false) := by
  decide +kernel

end Ability

end Clearance
