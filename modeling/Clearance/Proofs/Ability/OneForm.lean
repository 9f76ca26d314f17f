import Clearance.Proofs.Ability.Separation

/-!
# One form, exactly

An ability that is extended for one form either fails or decides about every object in a way
that can be told from the ability and the lists of the form. This file says which it is.

Only the lists for actions that are not possible on records are looked at, and the extension
has an error if one of them is corrupt (`Clearance.FormRecords.MeetsCorrupt`). There is one
other way to fail: between the lists the ability is asked whether the form may be updated, and
a condition of its own may not be able to tell. Otherwise an action that is possible on records
is decided as before, and any other is allowed on what its list gives
(`Clearance.FormRecords.Lists`), of which reading leaves out the archived records of a form
that may not be updated (`Clearance.Ability.extendForRecords_exact`).

The records of a form are told by its identifier, and a field that is missing equals nothing.
A form without an identifier has no records therefore, not even those without a form
(`Clearance.Ability.extendForRecords_exact_unstored`).
-/

namespace Clearance

open Outcome

/-- A condition that some object meets is not the constant that none does. -/
theorem Condition.isNothing_eq_false_of_check {condition : Condition} {entity : Entity}
    (h : condition.check entity = .ok true) : condition.isNothing = false := by
  cases condition with
  | always value =>
    obtain rfl : value = true := Except.ok.inj h
    rfl
  | _ => rfl

namespace FormRecords

variable {limit : Int} {form : Entity} {ability : Ability} {principal : Principal}
  {action : Action} {type : PermissionType} {rules : List Rule} {record : Record}

/-- Access to records is given by rules, whatever the action. -/
theorem acceptsRules_of_listFor? (h : listFor? action = some type) : type.acceptsRules = true := by
  cases action <;> cases h <;> rfl

/-! ### Errors -/

/-- A form **meets a corrupt list** if one of its lists that is looked at has an error: the list
for an action that is not possible on records. -/
def MeetsCorrupt (limit : Int) (form : Entity) (ability : Ability) (principal : Principal) : Prop :=
  ∃ action type error, listFor? action = some type ∧ ability.possible action .record = false ∧
    Listing.recordAccess limit form.grants type principal = .error error

theorem error_of_changingRules {error : RuleError}
    (h : changingRules limit form ability principal action type = .error error) :
    ability.possible action .record = false ∧
      Listing.recordAccess limit form.grants type principal = .error error := by
  rw [changingRules] at h
  split at h
  · cases h
  · next hpossible => exact ⟨Bool.eq_false_iff.mpr hpossible, map_eq_error.mp (map_eq_error.mp h)⟩

/-- **What is wrong with the rules about an action**: its list is corrupt, or the ability has no
answer whether the form may be updated. -/
theorem error_of_openingRules {error : AccessError}
    (h : openingRules limit form ability principal action = .error error) :
    (∃ found, error = .rule found ∧ MeetsCorrupt limit form ability principal) ∨
      ∃ fault, error = .fault fault ∧ ability.allows .update form = .error fault := by
  cases action with
  | create =>
    obtain ⟨found, hfound, rfl⟩ := mapError_eq_error.mp h
    rw [creationRules] at hfound
    split at hfound
    · cases hfound
    · next hpossible =>
      exact .inl ⟨found, rfl, .create, _, found, rfl, Bool.eq_false_iff.mpr hpossible,
        map_eq_error.mp hfound⟩
  | read =>
    rw [openingRules, readingRules] at h
    split at h
    · cases h
    · next hpossible =>
      rcases bind_eq_error.mp h with h | ⟨listed, -, h⟩
      · obtain ⟨found, hfound, rfl⟩ := mapError_eq_error.mp h
        exact .inl ⟨found, rfl, .read, _, found, rfl, Bool.eq_false_iff.mpr hpossible,
          map_eq_error.mp hfound⟩
      · cases listed with
        | none => cases h
        | some access =>
          rcases bind_eq_error.mp h with h | ⟨mayUpdate, -, h⟩
          · obtain ⟨fault, hfault, rfl⟩ := mapError_eq_error.mp h
            exact .inr ⟨fault, rfl, hfault⟩
          · cases h
  | update | delete =>
    obtain ⟨found, hfound, rfl⟩ := mapError_eq_error.mp h
    obtain ⟨hpossible, hlist⟩ := error_of_changingRules hfound
    exact .inl ⟨found, rfl, _, _, found, rfl, hpossible, hlist⟩
  | manage => cases h

/-- An error of the rules of a form is one of those about some action. -/
theorem exists_openingRules_error {error : AccessError}
    (h : FormRecords.rules limit form ability principal = .error error) :
    ∃ action, openingRules limit form ability principal action = .error error := by
  rcases bind_eq_error.mp h with h | ⟨creation, -, h⟩
  · exact ⟨.create, h⟩
  · rcases bind_eq_error.mp h with h | ⟨reading, -, h⟩
    · exact ⟨.read, h⟩
    · rcases bind_eq_error.mp h with h | ⟨updating, -, h⟩
      · exact ⟨.update, h⟩
      · rcases bind_eq_error.mp h with h | ⟨deleting, -, h⟩
        · exact ⟨.delete, h⟩
        · cases h

/-- A list that is looked at has been read. -/
theorem exists_recordAccess_of_openingRules (htype : listFor? action = some type)
    (hpossible : ability.possible action .record = false)
    (h : openingRules limit form ability principal action = .ok rules) :
    ∃ found, Listing.recordAccess limit form.grants type principal = .ok found := by
  have hopened : ∀ access, Opens limit principal form action access →
      Listing.recordAccess limit form.grants type principal = .ok (some access) := by
    rintro access ⟨⟨other, hother, haccess⟩, -⟩
    obtain rfl := Option.some.inj (htype.symm.trans hother)
    exact haccess
  cases adds_of_openingRules h with
  | possible htrue => exact Bool.noConfusion (hpossible.symm.trans htrue)
  | closed _ hclosed =>
    obtain ⟨found, hfound, -⟩ := hclosed type htype
    exact ⟨found, hfound⟩
  | opened access _ hopens _ => exact ⟨some access, hopened access hopens⟩
  | hidden access _ hopens _ _ => exact ⟨some access, hopened access hopens⟩

/-- A list gives a record just when the form opens the action, under a condition that accepts the
record. -/
theorem lists_iff (htype : listFor? action = some type) :
    Lists limit type principal form record ↔ isSubmission form record = true ∧
      ∃ access, Opens limit principal form action access ∧
        access.check (.record record) = .ok true := by
  refine and_congr_right fun _ => exists_congr fun access => and_congr_left fun hcheck => ?_
  constructor
  · exact fun haccess =>
      ⟨⟨type, htype, haccess⟩, fun _ => Condition.isNothing_eq_false_of_check hcheck⟩
  · rintro ⟨⟨other, hother, haccess⟩, -⟩
    obtain rfl := Option.some.inj (htype.symm.trans hother)
    exact haccess

end FormRecords

namespace Ability

open FormRecords

variable {limit : Int} {form : Entity} {ability extended : Ability} {principal : Principal}
  {action : Action} {type : PermissionType} {record : Record}

/-- **An error of the extension** is a corrupt list that it meets, or the fault with which the
ability answers whether the form may be updated. -/
theorem error_of_extendForRecords (hprincipal : ability.principal = some principal)
    {error : AccessError} (h : ability.extendForRecords limit form = .error error) :
    (∃ found, error = .rule found ∧ MeetsCorrupt limit form ability principal) ∨
      ∃ fault, error = .fault fault ∧ ability.allows .update form = .error fault := by
  rw [extendForRecords, hprincipal] at h
  obtain ⟨action, haction⟩ := exists_openingRules_error (map_eq_error.mp h)
  exact error_of_openingRules haction

/-- An extension that succeeds has met no corrupt list. -/
theorem not_meetsCorrupt (hprincipal : ability.principal = some principal)
    (h : ability.extendForRecords limit form = .ok extended) :
    ¬ MeetsCorrupt limit form ability principal := by
  rintro ⟨action, type, error, htype, hpossible, herror⟩
  obtain ⟨added, -, -, habout⟩ := exists_adds hprincipal h
  obtain ⟨rules, hrules, -⟩ := habout action
  obtain ⟨found, hfound⟩ := exists_recordAccess_of_openingRules htype hpossible hrules
  cases hfound.symm.trans herror

/-- **An action that was not possible** is allowed on what its list gives; of that, archived
records of a form that may not be updated are not read. -/
theorem allows_iff_of_not_possible (hprincipal : ability.principal = some principal)
    (h : ability.extendForRecords limit form = .ok extended) (htype : listFor? action = some type)
    (hpossible : ability.possible action .record = false) :
    extended.allows action (.record record) = .ok true ↔
      Lists limit type principal form record ∧
        ¬ (action = .read ∧ record.archived.same (.flag true) = true ∧
          ability.allows .update form = .ok false) := by
  rw [lists_iff htype]
  constructor
  · intro hallows
    obtain ⟨hsubmission, access, hopens, hcheck, hshown⟩ :=
      exists_opens_of_allows hprincipal h hpossible hallows
    refine ⟨⟨hsubmission, access, hopens, hcheck⟩, ?_⟩
    rintro ⟨hread, harchived, hupdate⟩
    have hmeets := hshown hread hupdate
    rw [meets_hideArchived_eq, hsubmission, harchived] at hmeets
    cases hmeets
  · rintro ⟨⟨hsubmission, access, hopens, hcheck⟩, hvisible⟩
    rw [allows_of_opens hprincipal h hpossible hsubmission hopens, askedFirst_eq_true_iff]
    · exact .inl hcheck
    · intro hread hupdate
      have harchived : record.archived.same (.flag true) = false :=
        Bool.eq_false_iff.mpr fun harchived => hvisible ⟨hread, harchived, hupdate⟩
      rw [meets_hideArchived_eq, hsubmission, harchived]
      rfl

/-- Managing records is decided as before: no list is for it. -/
theorem allows_manage (hprincipal : ability.principal = some principal)
    (h : ability.extendForRecords limit form = .ok extended) :
    extended.allows .manage (.record record) = ability.allows .manage (.record record) := by
  obtain ⟨added, rfl, -, habout⟩ := exists_adds hprincipal h
  obtain ⟨rules, hrules, hfilter⟩ := habout .manage
  obtain rfl := (adds_of_openingRules hrules).eq_nil_of_manage
  rw [allows, Entity.kind, check_extend, hfilter]
  rfl

/-- **What an ability that is extended for a form decides**, by what the ability decided before
and the lists of the form. -/
structure DecidesFor (limit : Int) (form : Entity) (ability : Ability) (principal : Principal)
    (extended : Ability) : Prop where
  /-- An action that was possible on records is decided as before. -/
  possible : ∀ action record, ability.possible action .record = true →
    extended.allows action (.record record) = ability.allows action (.record record)
  /-- To create, read, update or delete a record, if that was not possible, is allowed just when
  the record is one of the form and the list for the action gives it; but an archived record of a
  form that may not be updated is not read. -/
  listed : ∀ action type record, listFor? action = some type →
    ability.possible action .record = false →
    (extended.allows action (.record record) = .ok true ↔
      Lists limit type principal form record ∧
        ¬ (action = .read ∧ record.archived.same (.flag true) = true ∧
          ability.allows .update form = .ok false))
  /-- Managing records is decided as before, -/
  manage : ∀ record, extended.allows .manage (.record record) =
    ability.allows .manage (.record record)
  /-- and so are the records of other forms -/
  others : ∀ action record, isSubmission form record = false →
    extended.allows action (.record record) = ability.allows action (.record record)
  /-- and all that is no record. -/
  kinds : ∀ action entity, entity.kind ≠ .record →
    extended.allows action entity = ability.allows action entity

/-- **One form, exactly.** If the ability has an answer whether the form may be updated, extending
it for the form is an error of a rule just when a list that is looked at is corrupt, and succeeds
otherwise. Whatever the ability is, the extension has no other error than that of a corrupt list
and the one with which the ability answers, and where it succeeds it decides as the lists of the
form say. -/
theorem extendForRecords_exact (hprincipal : ability.principal = some principal) :
    ((∃ answer, ability.allows .update form = .ok answer) →
      ((∃ error, ability.extendForRecords limit form = .error (.rule error)) ↔
        MeetsCorrupt limit form ability principal) ∧
      (¬ MeetsCorrupt limit form ability principal →
        ∃ extended, ability.extendForRecords limit form = .ok extended)) ∧
    (∀ error, ability.extendForRecords limit form = .error error →
      (∃ found, error = .rule found ∧ MeetsCorrupt limit form ability principal) ∨
        ∃ fault, error = .fault fault ∧ ability.allows .update form = .error fault) ∧
    ∀ extended, ability.extendForRecords limit form = .ok extended →
      ¬ MeetsCorrupt limit form ability principal ∧
        DecidesFor limit form ability principal extended := by
  refine ⟨fun ⟨answer, hanswer⟩ => ?_, fun error => error_of_extendForRecords hprincipal,
    fun extended hextended => ⟨not_meetsCorrupt hprincipal hextended, ?_⟩⟩
  · -- with an answer, a corrupt list is all that can go wrong
    have hcorrupt : ∀ error, ability.extendForRecords limit form = .error error →
        ∃ found, error = .rule found ∧ MeetsCorrupt limit form ability principal := by
      intro error herror
      rcases error_of_extendForRecords hprincipal herror with hfound | ⟨fault, -, hfault⟩
      · exact hfound
      · cases hanswer.symm.trans hfault
    rcases hextended : ability.extendForRecords limit form with error | extended
    · obtain ⟨found, rfl, hmeets⟩ := hcorrupt error hextended
      exact ⟨iff_of_true ⟨found, rfl⟩ hmeets, fun hclean => absurd hmeets hclean⟩
    · exact ⟨iff_of_false (by simp) (not_meetsCorrupt hprincipal hextended),
        fun _ => ⟨extended, rfl⟩⟩
  · exact
      { possible := fun action record => allows_of_possible hprincipal hextended
        listed := fun action type record => allows_iff_of_not_possible hprincipal hextended
        manage := fun record => allows_manage hprincipal hextended
        others := fun action record => allows_of_not_submission hprincipal hextended
        kinds := fun action entity => allows_of_kind_ne hprincipal hextended }

/-- A form shows its records to a role and may be updated by another. A principal with the first
role reads the records of the form that are not archived, and updates none. -/
theorem extendForRecords_exact_reader :
    let principal : Principal := { userId := 1, roles := [{ id := 2 }] }
    let form : Entity := .form
      { id := some 3
        grants := [{ type := "canSeeRecords", roleId := 2 }, { type := "canUpdate", roleId := 4 }] }
    ∃ extended, (base principal).extendForRecords 32 form = .ok extended ∧
      (∀ record, extended.allows .read (.record record) = .ok true ↔
        isSubmission form record = true ∧ record.archived.same (.flag true) = false) ∧
      ∀ record, extended.allows .update (.record record) ≠ .ok true := by
  intro principal form
  have hprincipal : (base principal).principal = some principal := rfl
  obtain ⟨hextends, -, hdecides⟩ :
      _ ∧ _ ∧ ∀ extended, (base principal).extendForRecords 32 form = .ok extended → _ :=
    extendForRecords_exact hprincipal
  have hclean : ¬ MeetsCorrupt 32 form (base principal) principal := by
    rintro ⟨action, type, error, htype, -, herror⟩
    have haccepts : type.acceptsRules = true := acceptsRules_of_listFor? htype
    have hparse : RulesParse 32 principal form :=
      rulesParse_of_no_rules (by simp [form, Entity.grants, Entity.listed?])
    obtain ⟨found, hfound⟩ := Listing.exists_recordAccess haccepts (hparse type haccepts)
    cases hfound.symm.trans herror
  obtain ⟨extended, hextended⟩ := (hextends exists_check_base).2 hclean
  have hlisted := (hdecides extended hextended).2.listed
  refine ⟨extended, hextended, fun record => ?_, fun record hallows => ?_⟩
  · have hupdate : (base principal).allows .update form = .ok false := by decide +kernel
    have hgiven : Lists 32 .canSeeRecords principal form record ↔
        isSubmission form record = true :=
      and_iff_left ⟨.everything, rfl, rfl⟩
    rw [hlisted .read .canSeeRecords record rfl (by decide), hgiven, hupdate]
    simp
  · obtain ⟨⟨-, access, haccess, -⟩, -⟩ :=
      (hlisted .update .canUpdateRecords record rfl (by decide)).mp hallows
    exact nomatch (rfl : Listing.recordAccess 32 _ _ _ = .ok none).symm.trans haccess

/-- **A record without a form** is none of the records of a form that has no identifier: the list
of the form gives every record, and yet this one may not be read. And an ability that cannot tell
whether a form may be updated, because it would have to look for a list among texts, fails with
that before it comes to the corrupt list for updating records. -/
theorem extendForRecords_exact_unstored :
    let principal : Principal := { userId := 1, roles := [{ id := 2 }] }
    let unstored : Entity := .form { grants := [{ type := "canSeeRecords", roleId := 2 }] }
    let record : Record := { data := .object [], archived := .flag false }
    let unsure : Ability :=
      { principal := some principal
        rules := Rule.allow [.update] [.form] (some (.fieldIn "fields" [.value (.text "x")])) }
    let form : Entity := .form
      { id := some 3
        fields := .list []
        grants := [{ type := "canSeeRecords", roleId := 2 },
          { type := "canUpdateRecords", roleId := 2, access := some (.text "all") }] }
    (record.formId = unstored.id ∧ (base principal).possible .read .record = false ∧
      (∃ access,
        Listing.recordAccess 32 unstored.grants .canSeeRecords principal = .ok (some access) ∧
        access.check (.record record) = .ok true) ∧
      ∃ extended, (base principal).extendForRecords 32 unstored = .ok extended ∧
        extended.allows .read (.record record) = .ok false) ∧
    MeetsCorrupt 32 form unsure principal ∧
      unsure.extendForRecords 32 form = .error (.fault .wrongShape) := by
  intro principal unstored record unsure form
  refine ⟨⟨rfl, by decide, ⟨.everything, rfl, rfl⟩, ?_⟩, ?_, ?_⟩
  · obtain ⟨extended, hextended⟩ : ∃ extended,
        (base principal).extendForRecords 32 unstored = .ok extended :=
      exists_extendForRecords rfl
        (rulesParse_of_no_rules (by simp [unstored, Entity.grants, Entity.listed?]))
        exists_check_base
    refine ⟨extended, hextended, ?_⟩
    rw [allows_of_not_submission rfl hextended rfl, allows, Entity.kind, check_base_record]
    decide
  · exact ⟨.update, .canUpdateRecords, _, rfl, by decide, rfl⟩
  · rfl

end Ability

end Clearance
