import Clearance.Proofs.Ability.Opening
import Clearance.Proofs.Context.Memo

/-!
# Archived records

An ability for records is derived in two ways, for the form of the records or for several
forms at once, such as all forms of a resource. The first hides archived records from those
who can neither read all records nor update the form. The second adds no rule that denies, so
an archived record is shown to whoever the list of its form gives it to
(`Clearance.Context.archived_decisions`): a reader whom the first refuses may be let in by the
second (`Clearance.Context.archived_readable_through_resource`).
-/

namespace Clearance.Context

open FormRecords Outcome

variable {limit : Int} {store : Store} {principal : Principal} {resourceId : Uuid} {form : Entity}
  {record : Record} {session : Session}

/-! ### The forms of a resource -/

theorem mem_forms : form ∈ store.forms (some resourceId) ↔
    form ∈ store.entities ∧ form.kind = .form ∧ Store.isFormOf resourceId form = true :=
  Store.mem_ofKindWhere

/-- A record was submitted through at most one form of a resource. -/
theorem eq_of_isSubmission (hkeyed : store.IsKeyed) {other : Entity}
    (hform : form ∈ store.forms (some resourceId)) (hother : other ∈ store.forms (some resourceId))
    (hsubmission : isSubmission form record = true)
    (hsubmissionOther : isSubmission other record = true) : other = form := by
  obtain ⟨hstored, hkind, -⟩ := mem_forms.mp hform
  obtain ⟨hotherStored, hotherKind, -⟩ := mem_forms.mp hother
  refine hkeyed.eq_of_id_eq hotherStored hstored (.inl (hotherKind.trans hkind.symm)) ?_
  rw [isSubmission, Bool.and_eq_true, beq_iff_eq] at hsubmission hsubmissionOther
  exact hsubmissionOther.2.symm.trans hsubmission.2

/-- The ability for a resource is derived from all its forms. -/
theorem resourceDerivation_eq (hopen : store.isOpen = true) :
    (ofPrincipal principal).resourceDerivation limit store resourceId =
      ((Ability.base principal).extendForForms limit
        (store.forms (some resourceId))).mapError .rule := by
  have hreached : store.reached = .ok () := by rw [Store.reached, if_pos hopen]
  rw [resourceDerivation, hreached]
  rfl

/-! ### One form and several -/

/-- The ability for **one form** does not let an archived record of it be read. -/
theorem refuses_archived {extended : Ability}
    (h : (Ability.base principal).extendForRecords limit form = .ok extended)
    (hread : (Ability.base principal).possible .read .record = false)
    (hupdate : (Ability.base principal).allows .update form = .ok false)
    (hsubmission : isSubmission form record = true) (harchived : record.archived = .flag true) :
    extended.allows .read (.record record) = .ok false := by
  rcases Ability.check_read_archived h hupdate hsubmission harchived with hbefore | hrefused
  · exact hbefore.trans (Ability.check_base_record.trans (congrArg Except.ok hread))
  · exact hrefused

/-- The ability for **several forms** lets a record be read that the list of its form gives,
archived or not. -/
theorem exists_answer_of_extendForForms {forms : List Entity} {extended : Ability}
    (h : (Ability.base principal).extendForForms limit forms = .ok extended)
    (hread : (Ability.base principal).possible .read .record = false)
    (hloaded : (Entity.record record).IsLoaded) :
    ∃ answer, extended.allows .read (.record record) = .ok answer ∧
      (answer = true ↔ ∃ form ∈ forms, Lists limit .canSeeRecords principal form record) := by
  obtain ⟨answer, hanswer⟩ : ∃ answer, extended.allows .read (.record record) = .ok answer :=
    Ability.exists_allows_of_appendsMany (Ability.appendsMany_of_extendForForms h) hloaded
  have hcheck : extended.allows .read (.record record) = .ok true ↔
      ∃ form ∈ forms, Lists limit .canSeeRecords principal form record :=
    Ability.check_extendForForms rfl h rfl hread hloaded
  refine ⟨answer, hanswer, ?_⟩
  constructor
  · rintro rfl
    exact hcheck.mp hanswer
  · intro hlists
    exact Except.ok.inj (hanswer.symm.trans (hcheck.mpr hlists))

/-! ### An archive -/

/-- A reader: a principal with one role. -/
def reader : Principal where
  userId := 1
  roles := [{ id := 2 }]

/-- A form that shows its records to the reader and may be updated by somebody else. -/
def shownForm : Entity :=
  .form { id := some 5
          resourceId := some 4
          grants := [{ type := "canSeeRecords", roleId := 2 },
            { type := "canUpdate", roleId := 3 }] }

/-- An archived record of the form, as it is loaded. -/
def archivedRecord : Record where
  id := some 6
  formId := some 5
  resourceId := some 4
  data := .object []
  archived := .flag true
  form := some shownForm
  resource := some (.resource { id := some 4 })

/-- A store of the form, its resource and the record. -/
def archive : Store :=
  .ofRows [.resource { id := some 4 }, shownForm,
    .record { archivedRecord with form := none, resource := none }]

theorem mem_archive {entity : Entity} : entity ∈ archive.entities ↔
    entity = .resource { id := some 4 } ∨ entity = shownForm ∨
      entity = .record archivedRecord := by
  have hentities : archive.entities =
    [.resource { id := some 4 }, shownForm, .record archivedRecord] := rfl
  simp [hentities]

theorem isSound_archive : archive.IsSound where
  isOpen := rfl
  keyed := by
    refine Store.isKeyed_ofRows ?_ ?_
    · simp [shownForm, archivedRecord, Entity.id]
    · simp +decide [shownForm, archivedRecord, Entity.id]
  linked := Store.isLinked_ofRows _
  loaded := by
    intro entity hentity
    rcases mem_archive.mp hentity with rfl | rfl | rfl
    · refine Entity.isLoaded_of_cells ?_ (by simp [Entity.kind])
      simp [Entity.cells, Listed.cells, Cell.IsTyped, Column.Holds, Cell.ofId]
    · refine Entity.isLoaded_of_cells ?_ (by simp [shownForm, Entity.kind])
      simp [shownForm, Entity.cells, Listed.cells, Cell.IsTyped, Column.Holds, Cell.ofId]
    · refine Entity.isLoaded_of_cells ?_ fun _ => ⟨_, rfl⟩
      simp [archivedRecord, Entity.cells, Cell.IsTyped, Column.Holds, Cell.ofId, Cell.ofLoaded]

/-- Its entries have no rules. -/
theorem rulesParse_shownForm : RulesParse limit principal shownForm := by
  refine rulesParse_of_no_rules fun grant hgrant => ?_
  rcases List.mem_pair.mp hgrant with rfl | rfl <;> rfl

/-! ### Decisions -/

/-- **Archived records.** Let a principal be able to read no record by the base ability, and
not to update a form. The ability for the form refuses to read its archived records. The
abilities for several forms and for the resource of the form read an archived record just when
the list of a form it was submitted through gives it, as if it was not archived. There is such
an ability if the rules parse that it is made of; those about creating records are only part of
the one for the form. -/
theorem archived_decisions (hstore : store.IsSound)
    (hread : (Ability.base principal).possible .read .record = false)
    (hupdate : (Ability.base principal).allows .update form = .ok false)
    (hform : form ∈ store.forms (some resourceId))
    (hrecord : .record record ∈ store.entities) (hsubmission : isSubmission form record = true)
    (harchived : record.archived = .flag true)
    (hsession : Reaches limit store (ofPrincipal principal) session) :
    ((∀ ability, (Ability.base principal).extendForRecords limit form = .ok ability →
        ability.allows .read (.record record) = .ok false) ∧
      (RulesParse limit principal form →
        ∃ ability, (Ability.base principal).extendForRecords limit form = .ok ability)) ∧
    (∀ forms : List Entity,
      (∀ ability, (Ability.base principal).extendForForms limit forms = .ok ability →
        ∃ answer, ability.allows .read (.record record) = .ok answer ∧
          (answer = true ↔
            ∃ listed ∈ forms, Lists limit .canSeeRecords principal listed record)) ∧
      ((∀ listed ∈ forms, RecordRulesParse limit principal listed) →
        ∃ ability, (Ability.base principal).extendForForms limit forms = .ok ability)) ∧
    (∀ ability,
      ((ofPrincipal principal).abilityForResourceRecords limit store resourceId session).1 =
        .ok ability →
      ∃ answer, ability.allows .read (.record record) = .ok answer ∧
        (answer = true ↔ Lists limit .canSeeRecords principal form record)) ∧
    ((∀ stored ∈ store.forms (some resourceId), RecordRulesParse limit principal stored) →
      ∃ ability,
        ((ofPrincipal principal).abilityForResourceRecords limit store resourceId session).1 =
          .ok ability) := by
  have hloaded := hstore.loaded _ hrecord
  have hderived : ((ofPrincipal principal).abilityForResourceRecords limit store resourceId
      session).1 = ((Ability.base principal).extendForForms limit
        (store.forms (some resourceId))).mapError .rule := by
    rw [fst_abilityForResourceRecords (isDerived_of_reaches hstore.keyed hstore.linked hsession),
      resourceDerivation_eq hstore.isOpen]
  refine ⟨⟨fun ability hability => refuses_archived hability hread hupdate hsubmission harchived,
      fun hparse => Ability.exists_extendForRecords rfl hparse ⟨false, hupdate⟩⟩,
    fun forms => ⟨fun ability hability => exists_answer_of_extendForForms hability hread hloaded,
      fun hparse => Ability.exists_extendForForms rfl hparse⟩, fun ability hability => ?_,
    fun hparse => ?_⟩
  · rw [hderived] at hability
    obtain ⟨answer, hanswer, hgives⟩ :=
      exists_answer_of_extendForForms (mapError_eq_ok.mp hability) hread hloaded
    refine ⟨answer, hanswer, hgives.trans ?_⟩
    -- of the forms of the resource only one has the record
    constructor
    · rintro ⟨other, hother, hlists⟩
      rwa [eq_of_isSubmission hstore.keyed hform hother hsubmission hlists.1] at hlists
    · exact fun hlists => ⟨form, hform, hlists⟩
  · obtain ⟨ability, hability⟩ : ∃ ability, (Ability.base principal).extendForForms limit
        (store.forms (some resourceId)) = .ok ability :=
      Ability.exists_extendForForms rfl hparse
    exact ⟨ability, by rw [hderived, hability]; rfl⟩

/-- So the reader is refused by the ability for the form and let in by that for its
resource. -/
theorem archived_decisions_archive :
    (∃ ability, (Ability.base reader).extendForRecords 32 shownForm = .ok ability ∧
      ability.allows .read (.record archivedRecord) = .ok false) ∧
    ∃ ability,
      ((ofPrincipal reader).abilityForResourceRecords 32 archive 4 {}).1 =
        .ok ability ∧
      ability.allows .read (.record archivedRecord) = .ok true := by
  have hform : shownForm ∈ archive.forms (some 4) := List.mem_singleton_self _
  have hparse : ∀ stored ∈ archive.forms (some 4), RecordRulesParse 32 reader stored := by
    intro stored hstored
    obtain rfl := List.mem_singleton.mp hstored
    exact rulesParse_shownForm.recordRules
  have hread : (Ability.base reader).possible .read .record = false := by decide
  have hupdate : (Ability.base reader).allows .update shownForm = .ok false := by decide
  have hsubmission : isSubmission shownForm archivedRecord = true := by decide
  obtain ⟨⟨hrefuses, hone⟩, -, hgives, hresource⟩ :=
    archived_decisions isSound_archive hread hupdate hform (mem_archive.mpr (.inr (.inr rfl)))
      hsubmission rfl .start
  obtain ⟨single, hsingle⟩ := hone rulesParse_shownForm
  obtain ⟨ability, hability⟩ := hresource hparse
  obtain ⟨answer, hanswer, hlists⟩ := hgives ability hability
  obtain rfl : answer = true := hlists.mpr ⟨by decide, .everything, rfl, rfl⟩
  exact ⟨⟨single, hsingle, hrefuses single hsingle⟩, ability, hability, hanswer⟩

/-- **What one way hides the other shows**: a stored record is archived, its form belongs to
a resource, and its reader can neither read all records nor update the form. The ability for
the form refuses to read the record, those for a list of the form alone and for the resource
do not. -/
theorem archived_readable_through_resource :
    (Entity.record archivedRecord ∈ archive.entities ∧ archivedRecord.archived = .flag true ∧
      isSubmission shownForm archivedRecord = true ∧
      shownForm ∈ archive.forms (some 4)) ∧
    (Ability.base reader).possible .read .record = false ∧
    (Ability.base reader).allows .update shownForm = .ok false ∧
    ((Ability.base reader).extendForRecords 32 shownForm).toOption.map
      (·.allows .read (.record archivedRecord)) = some (.ok false) ∧
    ((Ability.base reader).extendForForms 32 [shownForm]).toOption.map
      (·.allows .read (.record archivedRecord)) = some (.ok true) ∧
    ((ofPrincipal reader).abilityForResourceRecords 32 archive 4 {}).1.toOption.map
      (·.allows .read (.record archivedRecord)) = some (.ok true) := by
  have hstored : Entity.record archivedRecord ∈ archive.entities :=
    mem_archive.mpr (.inr (.inr rfl))
  have hform : shownForm ∈ archive.forms (some 4) := List.mem_singleton_self _
  exact ⟨⟨hstored, rfl, by decide, hform⟩, by decide, by decide, rfl, rfl, rfl⟩

end Clearance.Context
