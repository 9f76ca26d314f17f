import Clearance.Proofs.Condition.Leaf
import Clearance.Proofs.Document.Lookup

/-!
# A condition and its filter agree

A condition is tried on an object in memory, or written as a filter that a store evaluates
in three-valued logic. Every condition that suits a kind renders as a filter on its rows
(`Clearance.Condition.exists_isRendered`), by one induction on the condition: the leaves
are those of `Clearance.Proofs.Condition.Leaf`, and as each of them is true or false, never
unknown, conjunctions, disjunctions and negations of them are so too, whatever constants
are folded away on the way.

In memory nothing goes wrong on a loaded object either: the parts that are tried have a
shape that can be looked into (`Clearance.Condition.check_eq_holds`).
-/

namespace Clearance.Condition

variable {kind : Kind} {condition part : Condition} {parts rest : List Condition}
  {filter : Filter} {filters : List Filter} {row entity : Entity}

/-! ### Conditions made of others -/

/-- Filters that render the conditions of a list, one by one. -/
structure AreRendered (kind : Kind) (parts : List Condition) (filters : List Filter) : Prop where
  /-- Each condition is written as its filter. -/
  written : filterEach kind parts = .ok filters
  /-- No operand of the filters is refused. -/
  taken : ∀ filter ∈ filters, filter.refusals = []
  /-- The conjunction is true or false of every loaded row. -/
  definiteAll : ∀ row : Entity, row.kind = kind → row.IsLoaded → ∃ answer,
    Filter.evalAll row filters = some answer ∧
      (AreRead row parts → ReadAlike row parts → answer = holdAll row parts)
  /-- The disjunction is true or false of every loaded row. -/
  definiteAny : ∀ row : Entity, row.kind = kind → row.IsLoaded → ∃ answer,
    Filter.evalAny row filters = some answer ∧
      (AreRead row parts → ReadAlike row parts → answer = holdAny row parts)

theorem areRendered_nil : AreRendered kind [] [] where
  written := rfl
  taken := by simp
  definiteAll _ _ _ := ⟨true, rfl, fun _ _ => rfl⟩
  definiteAny _ _ _ := ⟨false, rfl, fun _ _ => rfl⟩

theorem areRendered_cons (hpart : IsRendered kind part filter)
    (hrest : AreRendered kind rest filters) :
    AreRendered kind (part :: rest) (filter :: filters) where
  written := by
    rw [filterEach, hpart.written, hrest.written]
    rfl
  taken := List.forall_mem_cons.mpr ⟨hpart.taken, hrest.taken⟩
  definiteAll row hkind hloaded := by
    obtain ⟨first, hfirst, hholds⟩ := hpart.definite row hkind hloaded
    obtain ⟨others, hothers, hrestHolds⟩ := hrest.definiteAll row hkind hloaded
    refine ⟨first && others, ?_, fun hread halike => ?_⟩
    · rw [Filter.evalAll_cons, hfirst, hothers, Truth.and_some]
    · rw [holdAll, (hholds hread.1).1 halike.1, hrestHolds hread.2 halike.2]
  definiteAny row hkind hloaded := by
    obtain ⟨first, hfirst, hholds⟩ := hpart.definite row hkind hloaded
    obtain ⟨others, hothers, hrestHolds⟩ := hrest.definiteAny row hkind hloaded
    refine ⟨first || others, ?_, fun hread halike => ?_⟩
    · rw [Filter.evalAny_cons, hfirst, hothers, Truth.or_some]
    · rw [holdAny, (hholds hread.1).1 halike.1, hrestHolds hread.2 halike.2]

theorem isRendered_allOf (h : AreRendered kind parts filters) :
    IsRendered kind (allOf parts) (.conjunction filters) where
  written := by
    rw [Condition.filter, h.written]
    rfl
  taken := Filter.refusals_conjunction h.taken
  definite row hkind hloaded := by
    obtain ⟨answer, hanswer, hholds⟩ := h.definiteAll row hkind hloaded
    refine ⟨answer, ?_, fun hread => ⟨hholds hread, fun hleaf => absurd hleaf Bool.false_ne_true⟩⟩
    rw [Filter.eval_conjunction, hanswer]

theorem isRendered_anyOf (h : AreRendered kind parts filters) :
    IsRendered kind (anyOf parts) (.disjunction filters) where
  written := by
    rw [Condition.filter, h.written]
    rfl
  taken := Filter.refusals_disjunction h.taken
  definite row hkind hloaded := by
    obtain ⟨answer, hanswer, hholds⟩ := h.definiteAny row hkind hloaded
    refine ⟨answer, ?_, fun hread => ⟨hholds hread, fun hleaf => absurd hleaf Bool.false_ne_true⟩⟩
    rw [Filter.eval_disjunction, hanswer]

theorem isRendered_not (h : IsRendered kind part filter) :
    IsRendered kind (not part) filter.negation where
  written := by
    rw [Condition.filter, h.written]
    rfl
  taken := Filter.refusals_negation h.taken
  definite row hkind hloaded := by
    obtain ⟨answer, hanswer, hholds⟩ := h.definite row hkind hloaded
    refine ⟨!answer, ?_, fun hread =>
      ⟨fun halike => ?_, fun hleaf => absurd hleaf Bool.false_ne_true⟩⟩
    · rw [Filter.eval_negation, hanswer, Truth.not_some]
    · rw [holds, (hholds hread).1 halike]

theorem isRendered_always (value : Bool) : IsRendered kind (always value) (.constant value) :=
  isRendered_of_eq rfl rfl (fun _ => trivial) fun _ _ _ => rfl

mutual

/-- **A condition that suits a kind renders as a filter** on its rows. -/
theorem exists_isRendered : ∀ {condition : Condition}, condition.suits kind = true →
    ∃ filter, IsRendered kind condition filter
  | always value, _ => ⟨_, isRendered_always value⟩
  | allOf parts, h => by
    rw [suits] at h
    obtain ⟨filters, hfilters⟩ := exists_areRendered h
    exact ⟨_, isRendered_allOf hfilters⟩
  | anyOf parts, h => by
    rw [suits] at h
    obtain ⟨filters, hfilters⟩ := exists_areRendered h
    exact ⟨_, isRendered_anyOf hfilters⟩
  | not part, h => by
    rw [suits] at h
    obtain ⟨filter, hfilter⟩ := exists_isRendered h
    exact ⟨_, isRendered_not hfilter⟩
  | fieldEquals .., h => isRendered_fieldEquals h
  | fieldIn .., h => isRendered_fieldIn h
  | relatedIn .., h => isRendered_relatedIn h
  | granted .., h => isRendered_granted h
  | dataField .., h => isRendered_dataField h

/-- The conditions of a list that suit a kind render as filters. -/
theorem exists_areRendered : ∀ {parts : List Condition}, suitEach kind parts = true →
    ∃ filters, AreRendered kind parts filters
  | [], _ => ⟨_, areRendered_nil⟩
  | part :: rest, h => by
    rw [suitEach, Bool.and_eq_true] at h
    obtain ⟨filter, hfilter⟩ := exists_isRendered h.1
    obtain ⟨filters, hfilters⟩ := exists_areRendered h.2
    exact ⟨_, areRendered_cons hfilter hfilters⟩

end

/-! ### In memory -/

/-- A cell of a scalar column can be looked for in a set. -/
theorem cellFault?_eq_none {column : Column} {field : String}
    (hcolumn : entity.kind.column? field = some column) (hscalar : column.isScalar = true)
    (hloaded : entity.IsLoaded) : cellFault? (entity.cell field) = none := by
  have hfits := Entity.fits_cell hcolumn
  have htyped := hloaded.typed field
  cases column with
  | id =>
    obtain ⟨id, hid⟩ := hfits
    rw [hid]
    cases id <;> rfl
  | text | flag =>
    obtain ⟨document, hdocument⟩ := hfits
    rw [hdocument]
    rcases htyped _ _ hdocument with rfl | ⟨held, rfl⟩ <;> rfl
  | _ => simp [Column.isScalar] at hscalar

/-- The cell of a relationship leads to objects. -/
theorem relationFault?_eq_none {relationship : String}
    (h : isRelationship (entity.kind.column? relationship) = true) :
    relationFault? (entity.cell relationship) = none := by
  cases hcolumn : entity.kind.column? relationship with
  | none => simp [hcolumn, isRelationship] at h
  | some column =>
    have hfits := Entity.fits_cell hcolumn
    rw [hcolumn] at h
    cases column with
    | related | parts =>
      obtain ⟨held, hheld⟩ := hfits
      rw [hheld]
      rfl
    | _ => simp [isRelationship] at h

/-- The data of a record has fields. -/
theorem dataFault?_eq_none (hkind : (entity.kind.column? "data").isSome = true)
    (hloaded : entity.IsLoaded) : dataFault? entity.data = none := by
  -- only records have such a column
  have hrecord : entity.kind = .record := by
    revert hkind
    cases entity.kind <;> decide
  obtain ⟨members, hmembers⟩ := hloaded.data hrecord
  rw [hmembers]
  rfl

mutual

/-- **On a loaded object nothing goes wrong** with a condition that suits its kind. -/
theorem check_eq_holds (hloaded : entity.IsLoaded) : ∀ {condition : Condition},
    condition.suits entity.kind = true → condition.check entity = .ok (condition.holds entity)
  | always _, _ | fieldEquals .., _ | granted .., _ => by
    rw [check, holds]
  | allOf parts, h => by
    rw [suits] at h
    rw [check, holds, checkAll_eq_holdAll hloaded h]
  | anyOf parts, h => by
    rw [suits] at h
    rw [check, holds, checkAny_eq_holdAny hloaded h]
  | not part, h => by
    rw [suits] at h
    rw [check, holds, check_eq_holds hloaded h]
    rfl
  | fieldIn field operands, h => by
    rw [suits] at h
    obtain ⟨column, hcolumn, hsuits⟩ := (Option.any_eq_true _ _).mp h
    have hfault := cellFault?_eq_none hcolumn (Bool.and_eq_true_iff.mp hsuits).1 hloaded
    rw [check, holds, hfault, unlessFault]
  | relatedIn relationship ids, h => by
    rw [suits] at h
    rw [check, holds, relationFault?_eq_none h, unlessFault]
  | dataField field operator values, h => by
    rw [suits] at h
    rw [check, holds, dataFault?_eq_none h hloaded, ite_self, unlessFault]

/-- Nothing goes wrong with a conjunction. -/
theorem checkAll_eq_holdAll (hloaded : entity.IsLoaded) : ∀ {parts : List Condition},
    suitEach entity.kind parts = true → checkAll entity parts = .ok (holdAll entity parts)
  | [], _ => rfl
  | part :: rest, h => by
    rw [suitEach, Bool.and_eq_true] at h
    rw [checkAll, holdAll, check_eq_holds hloaded h.1]
    cases part.holds entity with
    | true => exact checkAll_eq_holdAll hloaded h.2
    | false => rfl

/-- Nothing goes wrong with a disjunction. -/
theorem checkAny_eq_holdAny (hloaded : entity.IsLoaded) : ∀ {parts : List Condition},
    suitEach entity.kind parts = true → checkAny entity parts = .ok (holdAny entity parts)
  | [], _ => rfl
  | part :: rest, h => by
    rw [suitEach, Bool.and_eq_true] at h
    rw [checkAny, holdAny, check_eq_holds hloaded h.1]
    cases part.holds entity with
    | true => rfl
    | false => exact checkAny_eq_holdAny hloaded h.2

end

/-! ### What a store reads -/

section Reading

variable {field : String} {operator : Operator} {values : List String} {operand : Operand}

/-- **A text without a NUL is read alike**, whatever it is compared with. -/
theorem readsAlike_dataField
    (h : ∀ text, memberText? entity.data field = some text → '\x00' ∉ text.toList) :
    (dataField field operator values).ReadsAlike entity := by
  have hwhole : ∀ text, memberText? entity.data field = some text →
      (Text.untilNul text.toList ∈ values.map String.toList ↔ text ∈ values) := by
    intro text htext
    -- without a NUL all of the text is read
    have huntil : Text.untilNul text.toList = text.toList := by
      refine List.takeWhile_eq_self_iff.mpr fun c hc => ?_
      rw [bne_iff_ne]
      rintro rfl
      exact h text htext hc
    rw [huntil]
    exact List.mem_map_of_injective fun _ _ hsame => String.toList_injective hsame
  cases operator with
  | equal | notEqual => exact hwhole
  | _ => trivial

/-- **A column that is not one of documents is read alike.** -/
theorem readsAlike_fieldEquals {column : Column}
    (hcolumn : entity.kind.column? field = some column) (hne : column ≠ .document) :
    (fieldEquals field operand).ReadsAlike entity := by
  cases operand with
  | id key => trivial
  | value plain =>
    intro held hheld
    have hfits := Entity.fits_cell hcolumn
    rw [hheld] at hfits
    cases column with
    | document => exact absurd rfl hne
    | id =>
      obtain ⟨_ | _, hid⟩ := hfits <;> cases hid
    | loaded =>
      obtain ⟨_ | _, hid⟩ := hfits <;> cases hid
    | _ =>
      obtain ⟨_, hother⟩ := hfits
      cases hother

end Reading

/-! ### Agreement -/

end Clearance.Condition
