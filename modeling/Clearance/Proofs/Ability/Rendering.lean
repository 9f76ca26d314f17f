import Clearance.Proofs.Ability.Access
import Clearance.Proofs.Ability.Submission
import Clearance.Proofs.Rule.Meaning
import Clearance.Proofs.Text.Pattern

/-!
# Rules about records in a store

What lists of forms give is made of stored rules, and these test the data of records. This
file says on which rows a store reads such tests as they are meant: on rows that are
*readable* (`Clearance.Entity.IsReadable`), for a principal whose values are
(`Clearance.Principal.IsReadable`). A text that is read as it is has no NUL and none of two
reserved characters, and no name in the data ends with a line feed, which a rule may look for
and a store never finds.

A stored rule that has been read names fields only (`Clearance.RuleTree.namesFields_of_spells`),
so whatever it compiles to is read right in a readable row, by induction on the rule
(`Clearance.RuleTree.readsRight_condition`). Thus the rules about the records of a form are read
right in readable rows (`Clearance.Ability.readsRight_of_extendForRecords`), and where they are
they render (`Clearance.Ability.renders_of_extendForRecords`).
-/

namespace Clearance

open Outcome

/-! ### What can be read -/

/-- A row that is **readable**: a store finds in its data what is there, and every text it
finds is read as it is. -/
structure Entity.IsReadable (row : Entity) : Prop where
  /-- No name in the data ends with a line feed. -/
  names : ∀ name value, row.data.get? name = some value → name.toList.getLast? ≠ some '\n'
  /-- The characters of the texts are read as they are. -/
  texts : ∀ name text, row.data.get? name = some (.text text) →
    ∀ c ∈ text.toList, Text.isFaithful c = true

/-- A principal whose values are **readable**: their characters are read as they are. -/
def Principal.IsReadable (principal : Principal) : Prop :=
  ∀ category, ∀ value ∈ principal.attributeValues category,
    ∀ c ∈ value.toList, Text.isFaithful c = true

/-! ### Conditions that are read right -/

namespace Condition

variable {row : Entity} {parts : List Condition} {field : String}

/-- A condition that is **read right** in a row: a store reads it as it should, and the leaves
are read alike in the store and in memory. -/
def ReadsRight (row : Entity) (condition : Condition) : Prop :=
  condition.IsRead row ∧ condition.ReadsAlike row

theorem readsRight_always (value : Bool) : (always value).ReadsRight row :=
  ⟨trivial, trivial⟩

theorem readRight_parts (h : ∀ part ∈ parts, part.ReadsRight row) :
    AreRead row parts ∧ ReadAlike row parts := by
  induction parts with
  | nil => exact ⟨trivial, trivial⟩
  | cons part rest ih =>
    obtain ⟨hpart, hrest⟩ := List.forall_mem_cons.mp h
    exact ⟨⟨hpart.1, (ih hrest).1⟩, hpart.2, (ih hrest).2⟩

/-- A conjunction is read right if its parts are, -/
theorem readsRight_allOf (h : ∀ part ∈ parts, part.ReadsRight row) :
    (allOf parts).ReadsRight row :=
  readRight_parts h

/-- and so is a disjunction, -/
theorem readsRight_anyOf (h : ∀ part ∈ parts, part.ReadsRight row) :
    (anyOf parts).ReadsRight row :=
  readRight_parts h

/-- also if it is its only part. -/
theorem readsRight_any (h : ∀ part ∈ parts, part.ReadsRight row) :
    (Condition.any parts).ReadsRight row := by
  rcases parts with _ | ⟨part, _ | ⟨other, rest⟩⟩
  · exact readsRight_anyOf h
  · exact h part (List.mem_singleton_self part)
  · exact readsRight_anyOf h

/-- A comparison of a column that holds no documents is read right. -/
theorem readsRight_fieldEquals {operand : Operand} {column : Column}
    (hcolumn : row.kind.column? field = some column) (hne : column ≠ .document) :
    (fieldEquals field operand).ReadsRight row :=
  ⟨trivial, readsAlike_fieldEquals hcolumn hne⟩

/-- **A test of a field** with readable values is read right in a readable row. -/
theorem readsRight_dataField {operator : Operator} {values : List String}
    (hfield : RuleTree.isFieldName field = true) (hrow : row.IsReadable)
    (hvalues : ∀ value ∈ values, ∀ c ∈ value.toList, Text.isFaithful c = true) :
    (dataField field operator values).ReadsRight row := by
  have hmember : Filter.member? row.data field = row.data.get? field := by
    refine Filter.member?_of_isFieldName hfield fun hfeed => ?_
    rcases hvalue : row.data.get? field with _ | value
    · rfl
    · exact absurd hfeed (hrow.names field value hvalue)
  have htexts : ∀ text, memberText? row.data field = some text →
      ∀ c ∈ text.toList, Text.isFaithful c = true :=
    fun text htext => hrow.texts field text (memberText?_eq_some_iff.mp htext)
  refine ⟨⟨hmember, fun value hvalue hequal hnotEqual text htext => ?_⟩, ?_⟩
  · exact like_pattern_eq_passes hequal hnotEqual (htexts text htext) (hvalues value hvalue)
  · refine readsAlike_dataField fun text htext hnul => ?_
    exact absurd (htexts text htext _ hnul) (by decide)

end Condition

/-! ### Stored rules -/

namespace RuleTree

mutual

/-- A rule tree whose attribute leaves name **fields**. -/
def NamesFields : RuleTree → Prop
  | combine _ parts => NameFields parts
  | compare _ field _ => isFieldName field = true
  | share _ => True

/-- A list of rule trees whose attribute leaves name fields. -/
def NameFields : List RuleTree → Prop
  | [] => True
  | part :: rest => NamesFields part ∧ NameFields rest

end

mutual

/-- **A stored rule names fields.** -/
theorem namesFields_of_spells : ∀ {tree : RuleTree} {value : Value}, Spells value tree →
    tree.NamesFields
  | combine _ _, _, .combine _ _ _ _ hparts => nameFields_of_forall₂ hparts
  | compare _ _ _, _, .compare _ _ hfield _ => isFieldName_iff_isAdmitted.mpr hfield.2
  | share _, _, _ => trivial

theorem nameFields_of_forall₂ : ∀ {parts : List RuleTree} {items : List Value},
    List.Forall₂ Spells items parts → NameFields parts
  | [], _, _ => trivial
  | _ :: _, _, .cons hpart hrest => ⟨namesFields_of_spells hpart, nameFields_of_forall₂ hrest⟩

end

variable {principal : Principal} {row : Entity}

mutual

/-- **What a rule compiles to is read right** in a readable row. -/
theorem readsRight_condition (hrow : row.IsReadable) (hprincipal : principal.IsReadable) :
    ∀ {tree : RuleTree}, tree.NamesFields → (condition principal tree).ReadsRight row
  | combine .and _, h => by
    rw [condition]
    exact Condition.readsRight_allOf (readsRight_conditions hrow hprincipal h)
  | combine .or _, h => by
    rw [condition]
    exact Condition.readsRight_anyOf (readsRight_conditions hrow hprincipal h)
  | compare category field operator, h => by
    rw [condition, compareCondition]
    split
    · exact Condition.readsRight_always false
    · exact Condition.readsRight_dataField h hrow (hprincipal category)
  | share named, _ => by
    rw [condition, shareCondition]
    split
    · exact Condition.readsRight_always false
    · exact ⟨trivial, trivial⟩

theorem readsRight_conditions (hrow : row.IsReadable) (hprincipal : principal.IsReadable) :
    ∀ {trees : List RuleTree}, NameFields trees →
      ∀ part ∈ conditions principal trees, part.ReadsRight row
  | [], _ => by
    intro part hpart
    cases hpart
  | _ :: _, h => List.forall_mem_cons.mpr
    ⟨readsRight_condition hrow hprincipal h.1, readsRight_conditions hrow hprincipal h.2⟩

end

end RuleTree

/-! ### Lists of forms -/

variable {limit : Int} {principal : Principal} {row : Entity} {condition : Condition}

/-- What a list gives is read right, -/
theorem Listing.readsRight_recordAccess {grants : List Grant} {type : PermissionType}
    (h : recordAccess limit grants type principal = .ok (some condition)) (hrow : row.IsReadable)
    (hprincipal : principal.IsReadable) : condition.ReadsRight row := by
  rcases recordAccess_cases h with ⟨rfl, -⟩ | ⟨conditions, rfl, hconditions⟩
  · exact Condition.readsRight_always true
  · refine Condition.readsRight_any fun part hpart => ?_
    obtain ⟨-, -, document, tree, -, htree, rfl⟩ := hconditions part hpart
    have hspells := (RuleTree.readNode_eq_ok_iff.mp htree).1
    exact RuleTree.readsRight_condition hrow hprincipal (RuleTree.namesFields_of_spells hspells)

namespace FormRecords

/-- and so are the records of a form that meet what is read right. -/
theorem readsRight_restricted (form : Entity) (hkind : row.kind = .record)
    (h : condition.ReadsRight row) : (restricted form condition).ReadsRight row := by
  have hsubmitted : (submitted form).ReadsRight row := by
    have hcolumn : row.kind.column? "form_id" = some .id := by
      rw [hkind]
      decide
    exact Condition.readsRight_fieldEquals hcolumn (by decide)
  refine Condition.readsRight_allOf fun part hpart => ?_
  rcases List.mem_pair.mp hpart with rfl | rfl
  · exact hsubmitted
  · exact h

/-- **What lists of forms give is read right** in readable rows of records. -/
theorem readsRight_of_gives (h : Gives limit principal condition) (hkind : row.kind = .record)
    (hrow : row.IsReadable) (hprincipal : principal.IsReadable) : condition.ReadsRight row := by
  induction h with
  | listed form type access haccess =>
    exact readsRight_restricted form hkind (Listing.readsRight_recordAccess haccess hrow hprincipal)
  | archived form =>
    have hcolumn : row.kind.column? "archived" = some .flag := by
      rw [hkind]
      decide
    exact readsRight_restricted form hkind (Condition.readsRight_fieldEquals hcolumn (by decide))
  | joint conditions _ ih => exact Condition.readsRight_any ih

end FormRecords

/-! ### Rules -/

namespace Ability

variable {ability extended : Ability} {form : Entity} {action : Action}

/-- An ability **reads right** in a row: the conditions of its rules about an action do. -/
def ReadsRight (ability : Ability) (action : Action) (row : Entity) : Prop :=
  ∀ rule ∈ ability.rulesFor action row.kind, ∀ condition, rule.condition = some condition →
    condition.ReadsRight row

/-- The conditions about records come from the lists of the form: the base ability has none. -/
theorem gives_of_extendForRecords (h : (base principal).extendForRecords limit form = .ok extended)
    {rule : Rule} (hrule : rule ∈ extended.rulesFor action .record)
    (hcondition : rule.condition = some condition) :
    FormRecords.Gives limit principal condition := by
  obtain ⟨added, hadded, rfl⟩ := map_eq_ok.mp h
  rcases List.mem_append.mp (mem_rulesFor.mp hrule).1 with hbase | hnew
  · have hspares := BaseRules.sparesRecords_all rule hbase condition hcondition
    exact absurd (kind_of_mem_rulesFor hrule) hspares.1
  · obtain ⟨-, -, -, given, hgiven, hgives⟩ := FormRecords.derives_of_rules hadded rule hnew
    obtain rfl := Option.some.inj (hgiven.symm.trans hcondition)
    exact hgives

/-- **The ability for the records of a form reads right** in readable rows, -/
theorem readsRight_of_extendForRecords
    (h : (base principal).extendForRecords limit form = .ok extended)
    (hprincipal : principal.IsReadable) (hkind : row.kind = .record) (hrow : row.IsReadable) :
    extended.ReadsRight action row := by
  intro rule hrule condition hcondition
  rw [hkind] at hrule
  exact FormRecords.readsRight_of_gives (gives_of_extendForRecords h hrule hcondition) hkind hrow
    hprincipal

/-- and where it does, its rules render. -/
theorem renders_of_extendForRecords {rows : List Entity}
    (h : (base principal).extendForRecords limit form = .ok extended)
    (hkind : ∀ row ∈ rows, row.kind = .record) (hloaded : ∀ row ∈ rows, row.IsLoaded)
    (hrows : ∀ row ∈ rows, extended.ReadsRight action row) :
    ∀ rule ∈ extended.rulesFor action .record, ∀ condition, rule.condition = some condition →
      condition.Renders .record rows := by
  intro rule hrule condition hcondition
  have hright : ∀ row ∈ rows, condition.ReadsRight row := fun row hrow =>
    hrows row hrow rule (by rwa [hkind row hrow]) condition hcondition
  exact Condition.renders_of_suits
    (FormRecords.suits_of_gives (gives_of_extendForRecords h hrule hcondition)) hkind hloaded
    (fun row hrow => (hright row hrow).1) fun row hrow => (hright row hrow).2

/-- The filter that is written for an ability **selects** a row on which its conditions render
just when the action is allowed there. -/
theorem selects_iff_allows {filter : Filter} (hfilter : ability.filter action row.kind = .ok filter)
    (hrenders : ∀ rule ∈ ability.rulesFor action row.kind, ∀ condition,
      rule.condition = some condition → condition.Renders row.kind [row]) :
    filter.selects row = true ↔ ability.allows action row = .ok true := by
  obtain ⟨written, hwritten, -, hanswers⟩ := exists_filter hrenders
  obtain rfl := Except.ok.inj (hfilter.symm.trans hwritten)
  obtain ⟨answer, heval, hcheck⟩ := hanswers row (List.mem_singleton_self row)
  rw [Filter.selects, heval, allows, hcheck]
  simp

end Ability

end Clearance
