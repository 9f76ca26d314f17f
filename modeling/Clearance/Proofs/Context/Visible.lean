import Clearance.Proofs.Ability.Growth
import Clearance.Proofs.Ability.Rendering
import Clearance.Proofs.Context.Memo

/-!
# Visible records

The records of a form that a principal may see are found in two ways. A context lists them by
one search of the store, with the filter of the ability that it derives for the form. Asked
about one record, it asks the base ability first, and then the ability that it derives for the
form the record was loaded with.

Both say the same about every record in which the conditions of that ability are read right
(`Clearance.Context.visibleRecords_exact`): the form that a record was loaded with is the one it
was submitted through, the derived ability allows whatever the base ability does, and the filter
is true of a record just when the ability allows the action on it. The search is scoped to the
form on top of that. About a text with a NUL in it, or a field with a line feed at its end, they
may differ (`Clearance.Context.visibleRecords_differ`).
-/

namespace Clearance

open Outcome

/-! ### The search -/

namespace Store

variable {store : Store} {formId : Uuid} {row : Entity} {ability : Ability} {action : Action}
  {filter : Filter} {found : List Entity}

theorem isRecordOf_eq_true_iff : isRecordOf (some formId) row = true ↔
    ∃ record : Record, row = .record record ∧ record.formId = some formId := by
  cases row <;> simp [isRecordOf]

/-- The filter of the records of a form is true of just these records: identifiers are compared
as texts, and no two are written alike. -/
theorem eval_ofForm (hkind : row.kind = .record) :
    (ofForm (some formId)).eval row = some true ↔ isRecordOf (some formId) row = true := by
  cases row with
  | record r =>
    have hcell : (Entity.record r).cell "form_id" = .ofId r.formId := rfl
    rw [ofForm, Filter.eval, hcell, isRecordOf, beq_iff_eq]
    rcases r.formId with _ | other
    · simp [Cell.ofId, Cell.stored, Stored.equals]
    · simp [Cell.ofId, Cell.stored, Stored.equals, Uuid.text_inj]
  | _ => cases hkind

/-- A filter that is **scoped** to the records of a form selects those of them that it selects
anyhow. -/
theorem selects_scoped_iff (hkind : row.kind = .record) :
    (Filter.conjunction [filter, ofForm (some formId)]).selects row = true ↔
      filter.selects row = true ∧ isRecordOf (some formId) row = true := by
  rw [← eval_ofForm hkind, Filter.selects, Filter.selects, beq_iff_eq, beq_iff_eq,
    Filter.eval_conjunction, Filter.evalAll_cons, Filter.evalAll_cons, Filter.evalAll_nil,
    Truth.and_true]
  exact Truth.and_eq_true_iff

/-- **The search for the records of a form** on which an ability allows an action. -/
theorem accessibleRecords_eq_ok_iff (hopen : store.isOpen = true)
    (hfilter : ability.filter action .record = .ok filter) (htaken : filter.refusals = []) :
    store.accessibleRecords ability action (some formId) = .ok found ↔
      store.engine.CarriesOut (.conjunction [filter, ofForm (some formId)])
        (store.ofKind .record) ∧
      (store.ofKind .record).filter
        (Filter.conjunction [filter, ofForm (some formId)]).selects = found := by
  have htakenBoth : (Filter.conjunction [filter, ofForm (some formId)]).refusals = [] :=
    Filter.refusals_conjunction (by simpa using ⟨htaken, rfl⟩)
  have hreached : store.reached = .ok () := by rw [reached, if_pos hopen]
  have hsearch : store.accessibleRecords ability action (some formId) =
      store.select .record (.conjunction [filter, ofForm (some formId)]) := by
    rw [accessibleRecords, hreached, hfilter]
    rfl
  rw [hsearch, select_eq_ok_iff hopen]
  exact and_iff_right htakenBoth

end Store

namespace Context

variable {limit : Int} {store : Store} {principal : Principal} {form : Entity} {record : Record}
  {action : Action} {extended : Ability} {session : Session}

/-! ### The decision about one record -/

theorem read?_name (action : Action) : Action.read? (.text action.name) = .ok action := by
  cases action <;> rfl

/-- What an ability is asked about an object is whether it allows the action. -/
theorem ask_object (ability : Ability) (entity : Entity) :
    ability.ask (.text action.name) (.object entity) none =
      (ability.allows action entity).mapError .fault := by
  rw [Ability.ask, read?_name]
  rfl

theorem derivedAbility_record {context : Context} (hform : record.form = some form) :
    context.derivedAbility limit store (.record record) none =
      some <$> context.abilityForRecords limit form := by
  obtain ⟨⟩ := record
  obtain rfl := hform
  rfl

/-- **The decision about a record** is that of the ability for its form: where the base ability
allows the action, the ability for the form does as well. -/
theorem fst_can_record (hform : record.form = some form) (hloaded : (Entity.record record).IsLoaded)
    (hextended : (Ability.base principal).extendForRecords limit form = .ok extended)
    (hability : ((ofPrincipal principal).abilityForRecords limit form session).1 = .ok extended) :
    ((ofPrincipal principal).can limit store (.text action.name) (.record record) none session).1 =
      (extended.allows action (.record record)).mapError .fault := by
  obtain ⟨answer, hanswer⟩ :
      ∃ answer, (Ability.base principal).allows action (.record record) = .ok answer :=
    Ability.exists_allows_base hloaded
  have hask : (ofPrincipal principal).base.ask (.text action.name) (.object (.record record)) none =
      .ok answer := by
    rw [ofPrincipal, ask_object, hanswer]
    rfl
  rw [can, bind_run, settled, hask]
  cases answer with
  | true =>
    -- what the base ability allows, the ability for the form does as well
    have hgrows := Ability.grows_of_appendsMany (Ability.appendsMany_of_extendForRecords hextended)
    have hallows : extended.allows action (.record record) = .ok true := hgrows.allowed hanswer
    rw [hallows]
    rfl
  | false =>
    rcases hrun : (ofPrincipal principal).abilityForRecords limit form session with ⟨outcome, after⟩
    obtain rfl : outcome = .ok extended := by rwa [hrun] at hability
    simp only [Bool.false_eq_true, if_false]
    rw [bind_run, derivedAbility_record hform, map_run, hrun]
    exact ask_object extended (.record record)

/-! ### The list -/

/-- The **filter of the search** for the visible records of a form. -/
def searchFilter (limit : Int) (principal : Principal) (form : Entity) (action : Action) :
    Except AccessError Filter := do
  let extended ← (Ability.base principal).extendForRecords limit form
  let filter ← (extended.filter action .record).mapError .fault
  return .conjunction [filter, Store.ofForm form.id]

/-- The list of a context is that of the store, for the ability for the form. -/
theorem fst_visibleRecords
    (hability : ((ofPrincipal principal).abilityForRecords limit form session).1 = .ok extended) :
    ((ofPrincipal principal).visibleRecords limit store form (.text action.name) session).1 =
      (store.accessibleRecords extended action form.id).mapError .fault := by
  rcases hrun : (ofPrincipal principal).abilityForRecords limit form session with ⟨outcome, after⟩
  obtain rfl : outcome = .ok extended := by rwa [hrun] at hability
  rw [visibleRecords, bind_run, hrun]
  dsimp only
  rw [bind_run, settled, read?_name]
  rfl

/-! ### Both ways -/

/-- In a sound store the records of a form were loaded with it. -/
theorem form_of_isRecordOf (hstore : store.IsSound) (hform : form ∈ store.entities)
    (hkind : form.kind = .form) {formId : Uuid} (hid : form.id = some formId)
    (hrecord : .record record ∈ store.entities) (hformId : record.formId = some formId) :
    record.form = some form := by
  rw [hstore.linked record hrecord, hformId, Option.bind_some]
  exact hstore.keyed.find?_eq_some_iff.mpr ⟨hform, hkind, hid⟩

/-- **What a context lists** are the stored records of the form that the filter of the ability
for the form selects. -/
theorem exists_visibleRecords (action : Action) (hstore : store.IsSound)
    (hform : form ∈ store.entities) (hkind : form.kind = .form)
    (hparse : FormRecords.RulesParse limit principal form)
    (hsession : session.IsDerived limit store (ofPrincipal principal)) :
    ∃ extended filter search, (Ability.base principal).extendForRecords limit form = .ok extended ∧
      extended.filter action .record = .ok filter ∧
      searchFilter limit principal form action = .ok search ∧
      ∀ found,
        ((ofPrincipal principal).visibleRecords limit store form (.text action.name) session).1 =
            .ok found ↔
          store.engine.CarriesOut search (store.ofKind .record) ∧
            (store.ofKind .record).filter (fun row =>
              filter.selects row && Store.isRecordOf form.id row) = found := by
  obtain ⟨formId, hid⟩ := hstore.keyed.identified form hform
  obtain ⟨extended, hextended⟩ : ∃ extended,
      (Ability.base principal).extendForRecords limit form = .ok extended :=
    Ability.exists_extendForRecords rfl hparse
      (Ability.exists_allows_base (hstore.loaded form hform))
  -- on no rows at all the rules render, whatever the store reads right
  have hrenders : ∀ rule ∈ extended.rulesFor action .record, ∀ condition,
      rule.condition = some condition → condition.Renders .record [] :=
    Ability.renders_of_extendForRecords hextended (by simp) (by simp) (by simp)
  obtain ⟨filter, hfilter, htaken, -⟩ := Ability.exists_filter hrenders
  have hsearch : searchFilter limit principal form action =
      .ok (.conjunction [filter, Store.ofForm form.id]) := by
    rw [searchFilter, hextended]
    simp only [bind, Except.bind, hfilter]
    rfl
  have hvisible :
      ((ofPrincipal principal).visibleRecords limit store form (.text action.name) session).1 =
        (store.accessibleRecords extended action form.id).mapError .fault :=
    fst_visibleRecords ((fst_abilityForRecords hsession hform hkind).trans hextended)
  refine ⟨extended, filter, _, hextended, hfilter, hsearch, fun found => ?_⟩
  have hselected : (store.ofKind .record).filter
      (Filter.conjunction [filter, Store.ofForm (some formId)]).selects =
      (store.ofKind .record).filter fun row =>
        filter.selects row && Store.isRecordOf (some formId) row := by
    refine List.filter_congr fun row hrow => Bool.eq_iff_iff.mpr ?_
    rw [Store.selects_scoped_iff (Store.mem_ofKind.mp hrow).2, Bool.and_eq_true]
  rw [hvisible, mapError_eq_ok, hid,
    Store.accessibleRecords_eq_ok_iff hstore.isOpen hfilter htaken, hselected]

/-! ### A form and two records -/

/-- A stored rule that a field equals some value of the user. -/
def fieldRule (field : String) : Value :=
  .object [("attribute", .object [("category", .text "00000000-0000-0000-0000-000000000003"),
    ("value", .text field), ("operator", .text "eq")])]

theorem spells_fieldRule {field : String} (hfield : RuleTree.isFieldName field = true) :
    RuleTree.Spells (fieldRule field) (.compare 3 field .equal) :=
  .compare rfl (RuleTree.spellsId_text (by decide +kernel))
    ⟨rfl, RuleTree.isFieldName_iff_isAdmitted.mp hfield⟩
    ⟨_, rfl, Text.map_toLower_eq_iff.mp rfl⟩

/-- A principal with one role and one value. -/
def northerner : Principal where
  userId := 1
  roles := [{ id := 2 }]
  attributes := [(3, ["nor"])]

theorem isReadable_northerner : northerner.IsReadable := by
  intro category value hvalue
  have hvalue : value = "nor" := by
    rw [Principal.attributeValues, northerner, List.lookup_cons] at hvalue
    split at hvalue
    · simpa using hvalue
    · simp at hvalue
  subst hvalue
  exact List.all_eq_true.mp (by decide)

/-- A form that shows its records to those with the role as far as such a rule lets it. -/
def fieldForm (field : String) : Entity :=
  .form { id := some 5
          grants := [{ type := "canSeeRecords", roleId := 2, access := some (fieldRule field) }] }

theorem rulesParse_fieldForm {field : String} (hfield : RuleTree.isFieldName field = true)
    (hlimit : 0 < limit.toNat) : FormRecords.RulesParse limit principal (fieldForm field) := by
  intro type _ grant hgrant document hdocument
  obtain rfl := List.mem_singleton.mp (List.mem_filter.mp (List.mem_filter.mp hgrant).1).1
  obtain rfl := Option.some.inj hdocument
  exact ⟨_, RuleTree.readNode_eq_ok_iff.mpr ⟨spells_fieldRule hfield, hlimit⟩⟩

/-- A record of the form, with a text in the field. -/
def fieldRecord (field : String) (id : Uuid) (text : String) : Record where
  id := some id
  formId := some 5
  data := .object [(field, .text text)]
  archived := .flag false
  form := some (fieldForm field)

section

variable {field first second text : String} {id : Uuid} {entity : Entity}

theorem isLoaded_fieldRecord : (Entity.record (fieldRecord field id text)).IsLoaded := by
  refine Entity.isLoaded_of_cells ?_ fun _ => ⟨_, rfl⟩
  simp [fieldRecord, Entity.cells, Cell.IsTyped, Column.Holds, Cell.ofId, Cell.ofLoaded]

theorem isReadable_fieldRecord (hfield : field.toList.getLast? ≠ some '\n')
    (htext : ∀ c ∈ text.toList, Text.isFaithful c = true) :
    (Entity.record (fieldRecord field id text)).IsReadable := by
  have hget : ∀ name value, (Entity.record (fieldRecord field id text)).data.get? name =
      some value → name = field ∧ value = .text text := by
    intro name value hvalue
    rw [Entity.data, fieldRecord, Value.get?, Members.get?, List.lookup_cons] at hvalue
    split at hvalue
    · next hname => exact ⟨beq_iff_eq.mp hname, (Option.some.inj hvalue).symm⟩
    · cases hvalue
  refine ⟨fun name value hvalue => ?_, fun name found hfound => ?_⟩
  · rw [(hget name value hvalue).1]
    exact hfield
  · have hsame : found = text := Value.text.inj (hget name _ hfound).2
    rwa [hsame]

/-- A store of the form and of two of its records. -/
def fieldStore (field first second : String) : Store :=
  .ofRows [fieldForm field, .record { fieldRecord field 6 first with form := none },
    .record { fieldRecord field 7 second with form := none }]

theorem mem_fieldStore : entity ∈ (fieldStore field first second).entities ↔
    entity = fieldForm field ∨ entity = .record (fieldRecord field 6 first) ∨
      entity = .record (fieldRecord field 7 second) := by
  have hentities : (fieldStore field first second).entities = [fieldForm field,
    .record (fieldRecord field 6 first), .record (fieldRecord field 7 second)] := rfl
  simp [hentities]

theorem isSound_fieldStore : (fieldStore field first second).IsSound where
  isOpen := rfl
  keyed := by
    refine Store.isKeyed_ofRows ?_ ?_
    · simp [fieldForm, fieldRecord, Entity.id]
    · simp +decide [fieldForm, fieldRecord, Entity.id, Entity.SharesKeys, Entity.kind]
  linked := Store.isLinked_ofRows _
  loaded := by
    intro entity hentity
    rcases mem_fieldStore.mp hentity with rfl | rfl | rfl
    · refine Entity.isLoaded_of_cells ?_ (by simp [fieldForm, Entity.kind])
      simp [fieldForm, Entity.cells, Listed.cells, Cell.IsTyped, Column.Holds, Cell.ofId]
    · exact isLoaded_fieldRecord
    · exact isLoaded_fieldRecord

end

/-! ### The two ways -/

/-- **The visible records of a form.** Let the rules of a stored form parse, and let a context have
been asked anything before. It lists something just when the engine of the store carries out the
search. What it lists are stored records of the form, in strictly ascending order. A stored record
of the form in which the conditions of the ability for the form are read right is listed just when
the context decides about it, on its own, that the action is allowed. They are read right in every
readable record, for a principal whose values are readable. -/
theorem visibleRecords_exact {other : Session} (hstore : store.IsSound)
    (hform : form ∈ store.entities) (hkind : form.kind = .form)
    (hparse : FormRecords.RulesParse limit principal form)
    (hsession : Reaches limit store (ofPrincipal principal) session)
    (hother : Reaches limit store (ofPrincipal principal) other) :
    ∃ extended filter, (Ability.base principal).extendForRecords limit form = .ok extended ∧
      searchFilter limit principal form action = .ok filter ∧
      ((∃ found,
        ((ofPrincipal principal).visibleRecords limit store form (.text action.name) session).1 =
          .ok found) ↔ store.engine.CarriesOut filter (store.ofKind .record)) ∧
      (∀ found,
        ((ofPrincipal principal).visibleRecords limit store form (.text action.name) session).1 =
            .ok found →
          found.Pairwise Entity.Precedes ∧
          (∀ entity ∈ found,
            entity ∈ store.entities ∧ Store.isRecordOf form.id entity = true) ∧
          ∀ entity ∈ store.entities, Store.isRecordOf form.id entity = true →
            extended.ReadsRight action entity →
            (entity ∈ found ↔
              ((ofPrincipal principal).can limit store (.text action.name) entity none other).1 =
                .ok true)) ∧
      (principal.IsReadable → ∀ entity, entity.kind = .record → entity.IsReadable →
        extended.ReadsRight action entity) := by
  have hderived := isDerived_of_reaches hstore.keyed hstore.linked hsession
  have hotherDerived := isDerived_of_reaches hstore.keyed hstore.linked hother
  obtain ⟨extended, filter, search, hextended, hfilter, hsearch, hlists⟩ :=
    exists_visibleRecords action hstore hform hkind hparse hderived
  simp only [hlists]
  refine ⟨extended, search, hextended, hsearch, ?_, ?_, fun hprincipal entity hrecord hreadable =>
    Ability.readsRight_of_extendForRecords hextended hprincipal hrecord hreadable⟩
  · exact ⟨fun ⟨_, hcarries, _⟩ => hcarries, fun hcarries => ⟨_, hcarries, rfl⟩⟩
  · rintro _ ⟨-, rfl⟩
    have hmem : ∀ entity, (entity ∈ (store.ofKind .record).filter fun row =>
        filter.selects row && Store.isRecordOf form.id row) ↔
        (entity ∈ store.entities ∧ entity.kind = .record) ∧
          filter.selects entity = true ∧ Store.isRecordOf form.id entity = true := by
      intro entity
      rw [List.mem_filter, Store.mem_ofKind, Bool.and_eq_true]
    refine ⟨(hstore.keyed.pairwise_ofKind .record).filter _, fun entity hentity => ?_,
      fun entity hentity hrecord hright => ?_⟩
    · obtain ⟨⟨hstored, -⟩, -, hrecord⟩ := (hmem entity).mp hentity
      exact ⟨hstored, hrecord⟩
    · -- the record was loaded with the form, so the same ability is asked
      obtain ⟨formId, hid⟩ := hstore.keyed.identified form hform
      rw [hid] at hrecord
      obtain ⟨record, rfl, hformId⟩ := Store.isRecordOf_eq_true_iff.mp hrecord
      have hlinked := form_of_isRecordOf hstore hform hkind hid hentity hformId
      have hselects : filter.selects (.record record) = true ↔
          extended.allows action (.record record) = .ok true := by
        refine Ability.selects_iff_allows hfilter ?_
        exact Ability.renders_of_extendForRecords hextended (by simp [Entity.kind])
          (by simpa using hstore.loaded _ hentity) (by simpa using hright)
      rw [hmem, hselects, hid, fst_can_record hlinked (hstore.loaded _ hentity) hextended
        ((fst_abilityForRecords hotherDerived hform hkind).trans hextended), mapError_eq_ok]
      exact ⟨fun h => h.2.1, fun h => ⟨⟨hentity, rfl⟩, h, hrecord⟩⟩

/-- Of two records of a form the one with the value of the principal is listed. -/
theorem visibleRecords_exact_two : ∃ found,
    ((ofPrincipal northerner).visibleRecords 32 (fieldStore "site" "nor" "south")
      (fieldForm "site") (.text Action.read.name) {}).1 = .ok found ∧
    ∀ entity, entity ∈ found ↔ entity = .record (fieldRecord "site" 6 "nor") := by
  have hreadable : ∀ entity ∈ (fieldStore "site" "nor" "south").entities,
      entity.kind = .record → entity.IsReadable := by
    intro entity hentity hkind
    rcases mem_fieldStore.mp hentity with rfl | rfl | rfl
    · cases hkind
    · exact isReadable_fieldRecord (by decide) (List.all_eq_true.mp (by decide))
    · exact isReadable_fieldRecord (by decide) (List.all_eq_true.mp (by decide))
  have hparse : FormRecords.RulesParse 32 northerner (fieldForm "site") :=
    rulesParse_fieldForm (by decide) (by decide)
  obtain ⟨extended, filter, -, -, hlists, hlisted, hright⟩ :=
    @visibleRecords_exact 32 _ northerner _ .read _ _ isSound_fieldStore
      (mem_fieldStore.mpr (.inl rfl)) rfl hparse .start .start
  obtain ⟨found, hfound⟩ := hlists.mpr ⟨rfl, fun _ _ => rfl⟩
  obtain ⟨-, hstored, hdecided⟩ := hlisted found hfound
  have hmem : ∀ entity ∈ (fieldStore "site" "nor" "south").entities,
      Store.isRecordOf (fieldForm "site").id entity = true → (entity ∈ found ↔
        ((ofPrincipal northerner).can 32 (fieldStore "site" "nor" "south")
          (.text Action.read.name) entity none {}).1 = .ok true) := by
    intro entity hentity hrecord
    obtain ⟨record, rfl, -⟩ := Store.isRecordOf_eq_true_iff.mp hrecord
    exact hdecided _ hentity hrecord
      (hright isReadable_northerner _ rfl (hreadable _ hentity rfl))
  refine ⟨found, hfound, fun entity => ⟨fun hentity => ?_, ?_⟩⟩
  · obtain ⟨hin, hrecord⟩ := hstored entity hentity
    have hcan := (hmem entity hin hrecord).mp hentity
    rcases mem_fieldStore.mp hin with rfl | rfl | rfl
    · cases hrecord
    · rfl
    · -- the other one is of another site
      exact absurd (toOption_eq_some_iff.mpr hcan) (by decide +kernel)
  · rintro rfl
    refine (hmem _ (mem_fieldStore.mpr (.inr (.inl rfl))) (by decide)).mpr ?_
    exact toOption_eq_some_iff.mp (by decide +kernel)

/-- **What is not read right may be listed wrongly.** Of a text with a NUL the store reads the part
before it, so that a record is listed which may not be read. Under a field with a line feed at its
end the store finds nothing, so that a record is not listed which may be read. -/
theorem visibleRecords_differ :
    ((fieldStore "site" "nor\x00th" "south").IsSound ∧
      fieldForm "site" ∈ (fieldStore "site" "nor\x00th" "south").entities ∧
      FormRecords.RulesParse 32 northerner (fieldForm "site") ∧
      ((ofPrincipal northerner).can 32 (fieldStore "site" "nor\x00th" "south")
        (.text Action.read.name) (.record (fieldRecord "site" 6 "nor\x00th")) none
          {}).1.toOption = some false ∧
      ((ofPrincipal northerner).visibleRecords 32 (fieldStore "site" "nor\x00th" "south")
        (fieldForm "site") (.text Action.read.name) {}).1.toOption.map (List.map Entity.id) =
          some [some 6]) ∧
    (fieldStore "site\n" "nor" "south").IsSound ∧
      fieldForm "site\n" ∈ (fieldStore "site\n" "nor" "south").entities ∧
      FormRecords.RulesParse 32 northerner (fieldForm "site\n") ∧
      ((ofPrincipal northerner).can 32 (fieldStore "site\n" "nor" "south")
        (.text Action.read.name) (.record (fieldRecord "site\n" 6 "nor")) none
          {}).1.toOption = some true ∧
      ((ofPrincipal northerner).visibleRecords 32 (fieldStore "site\n" "nor" "south")
        (fieldForm "site\n") (.text Action.read.name) {}).1.toOption.map (List.map Entity.id) =
          some [] :=
  ⟨⟨isSound_fieldStore, mem_fieldStore.mpr (.inl rfl), rulesParse_fieldForm (by decide) (by decide),
    by decide +kernel, by decide +kernel⟩,
    isSound_fieldStore, mem_fieldStore.mpr (.inl rfl), rulesParse_fieldForm (by decide) (by decide),
    by decide +kernel, by decide +kernel⟩

end Context

end Clearance
