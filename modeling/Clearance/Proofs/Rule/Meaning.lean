import Clearance.Document.Access
import Clearance.Proofs.Identifier.Text
import Clearance.Proofs.Outcome
import Clearance.Proofs.Text.Letters
import Clearance.Rule.Compile

/-!
# What a rule means

A rule tree says of a record and a principal that the record is meant for the principal.
`Clearance.RuleTree.Accepts` spells that out node by node, without conditions: it looks at
the record's data and groups, and at the principal's values and groups.

Compiling a rule for a principal puts the principal's values into it, replaces leaves that
no record can meet by a constant, and intersects groups beforehand. None of this changes the
meaning (`Clearance.RuleTree.compiled_accepts_iff`), and on a record whose data has fields
the condition always has an answer. In particular a negated comparison accepts nothing when
there is no text to compare or no value to compare it with.
-/

namespace Clearance

open Outcome

/-! ### Comparing a text with values -/

namespace Operator

/-- A text **suits** the values of a principal: some value passes the test of the operator,
or, for the two negated operators, every value fails it. -/
def Suits : Operator → String → List String → Prop
  | .equal, text, values => ∃ value ∈ values, text = value
  | .notEqual, text, values => ∀ value ∈ values, text ≠ value
  | .contains, text, values => ∃ value ∈ values, Text.Contains text value
  | .doesNotContain, text, values => ∀ value ∈ values, ¬ Text.Contains text value
  | .startsWith, text, values => ∃ value ∈ values, Text.BeginsWith text value
  | .endsWith, text, values => ∃ value ∈ values, Text.EndsWith text value

/-- **An operator accepts a text** just when it suits the values. -/
theorem accepts_eq_true_iff {operator : Operator} {text : String} {values : List String} :
    operator.accepts text values = true ↔ operator.Suits text values := by
  cases operator with
  | equal | notEqual => simp [accepts, negated, passes, Suits]
  | contains | doesNotContain => simp [accepts, negated, passes, Suits, ← Text.occursIn_folded_iff]
  | startsWith => simp [accepts, negated, passes, Suits, ← Text.isPrefixOf_folded_iff]
  | endsWith => simp [accepts, negated, passes, Suits, ← Text.isSuffixOf_folded_iff]

end Operator

namespace RuleTree

/-! ### The meaning of a tree -/

/-- A rule tree **accepts** a record for a principal. -/
inductive Accepts (principal : Principal) (record : Record) : RuleTree → Prop
  /-- All parts of a conjunction accept the record. -/
  | all {parts : List RuleTree} (hparts : ∀ part ∈ parts, Accepts principal record part) :
      Accepts principal record (combine .and parts)
  /-- Some part of a disjunction accepts the record. -/
  | some {parts : List RuleTree} {part : RuleTree} (hpart : part ∈ parts)
      (haccepts : Accepts principal record part) : Accepts principal record (combine .or parts)
  /-- There is a text under the field and a value in the category, and the text suits the
  values. -/
  | compare {category : Uuid} {field text : String} {operator : Operator}
      (htext : record.data.get? field = some (.text text))
      (hvalues : principal.attributeValues category ≠ [])
      (hsuits : operator.Suits text (principal.attributeValues category)) :
      Accepts principal record (compare category field operator)
  /-- The record and the principal share a group, one of those named if any are. -/
  | share {named : List Uuid} {group : Uuid} (hrecord : group ∈ record.groupIds)
      (hprincipal : group ∈ principal.groupIds) (hnamed : named = [] ∨ group ∈ named) :
      Accepts principal record (share named)

variable {principal : Principal} {record : Record} {parts : List RuleTree}

theorem accepts_and_iff :
    Accepts principal record (combine .and parts) ↔ ∀ part ∈ parts, Accepts principal record part :=
  ⟨fun | .all hparts => hparts, .all⟩

theorem accepts_or_iff :
    Accepts principal record (combine .or parts) ↔ ∃ part ∈ parts, Accepts principal record part :=
  ⟨fun | .some hpart haccepts => ⟨_, hpart, haccepts⟩,
    fun ⟨_, hpart, haccepts⟩ => .some hpart haccepts⟩

theorem accepts_compare_iff {category : Uuid} {field : String} {operator : Operator} :
    Accepts principal record (compare category field operator) ↔
      principal.attributeValues category ≠ [] ∧ ∃ text,
        record.data.get? field = some (.text text) ∧
          operator.Suits text (principal.attributeValues category) :=
  ⟨fun | .compare htext hvalues hsuits => ⟨hvalues, _, htext, hsuits⟩,
    fun ⟨hvalues, _, htext, hsuits⟩ => .compare htext hvalues hsuits⟩

theorem accepts_share_iff {named : List Uuid} :
    Accepts principal record (share named) ↔
      ∃ group ∈ record.groupIds, group ∈ principal.groupIds ∧ (named = [] ∨ group ∈ named) :=
  ⟨fun | .share hrecord hprincipal hnamed => ⟨_, hrecord, hprincipal, hnamed⟩,
    fun ⟨_, hrecord, hprincipal, hnamed⟩ => .share hrecord hprincipal hnamed⟩

end RuleTree

/-! ### What a condition says -/

namespace Condition

/-- A condition **says** of an object that something holds: it has an answer, and the answer
is yes just when it holds. -/
def Says (entity : Entity) (condition : Condition) (holds : Prop) : Prop :=
  ∃ answer, condition.check entity = .ok answer ∧ (answer = true ↔ holds)

variable {entity : Entity} {part : Condition} {rest : List Condition} {P Q : Prop}

theorem Says.congr {condition : Condition} (h : condition.Says entity P) (hiff : P ↔ Q) :
    condition.Says entity Q := by
  obtain ⟨answer, hanswer, hholds⟩ := h
  exact ⟨answer, hanswer, hholds.trans hiff⟩

theorem says_nothing (h : ¬ P) : nothing.Says entity P :=
  ⟨false, rfl, by simp [h]⟩

theorem says_allOf_nil : (allOf []).Says entity True :=
  ⟨true, rfl, by simp⟩

theorem says_anyOf_nil : (anyOf []).Says entity False :=
  ⟨false, rfl, by simp⟩

theorem says_allOf_cons (hpart : part.Says entity P) (hrest : (allOf rest).Says entity Q) :
    (allOf (part :: rest)).Says entity (P ∧ Q) := by
  obtain ⟨first, hfirst, hP⟩ := hpart
  obtain ⟨others, hothers, hQ⟩ := hrest
  cases first with
  | false =>
    refine ⟨false, by rw [check, checkAll, hfirst], ?_⟩
    have hnot : ¬ P := fun h => Bool.noConfusion (hP.mpr h)
    simp [hnot]
  | true =>
    refine ⟨others, by rw [check, checkAll, hfirst]; exact hothers, hQ.trans ?_⟩
    simp [hP.mp rfl]

theorem says_anyOf_cons (hpart : part.Says entity P) (hrest : (anyOf rest).Says entity Q) :
    (anyOf (part :: rest)).Says entity (P ∨ Q) := by
  obtain ⟨first, hfirst, hP⟩ := hpart
  obtain ⟨others, hothers, hQ⟩ := hrest
  cases first with
  | false =>
    refine ⟨others, by rw [check, checkAny, hfirst]; exact hothers, hQ.trans ?_⟩
    have hnot : ¬ P := fun h => Bool.noConfusion (hP.mpr h)
    simp [hnot]
  | true =>
    refine ⟨true, by rw [check, checkAny, hfirst], ?_⟩
    simp [hP.mp rfl]

/-- What a leaf finds under a field is a text that the data has there. -/
theorem memberText?_eq_some_iff {data : Value} {field text : String} :
    memberText? data field = some text ↔ data.get? field = some (.text text) := by
  cases data with
  | object members =>
    rw [memberText?, Value.get?]
    rcases Members.get? members field with _ | held
    · simp
    · cases held <;> simp
  | _ => simp [memberText?, Value.get?]

end Condition

namespace RuleTree

open Condition

variable {principal : Principal} {record : Record} {members : Members}

/-! ### Leaves -/

/-- The condition of an attribute leaf looks for a text only if there is a value to compare it
with. -/
theorem says_compareCondition (hdata : dataFault? record.data = none) (category : Uuid)
    (field : String) (operator : Operator) :
    (compareCondition principal category field operator).Says (.record record)
      (Accepts principal record (compare category field operator)) := by
  rw [accepts_compare_iff, compareCondition]
  by_cases hvalues : principal.attributeValues category = []
  · rw [hvalues]
    exact says_nothing fun h => h.1 rfl
  · have hempty : (principal.attributeValues category).isEmpty = false := by simpa using hvalues
    simp only [hempty, Bool.false_eq_true, if_false]
    refine ⟨dataAccepts record.data field operator (principal.attributeValues category), ?_, ?_⟩
    · simp only [check, hempty, Bool.false_eq_true, if_false, Entity.data, hdata, unlessFault]
    · simp only [← memberText?_eq_some_iff, dataAccepts, hempty, Bool.false_eq_true, if_false]
      cases memberText? record.data field <;> simp [Operator.accepts_eq_true_iff, hvalues]

/-- The condition of a group leaf looks for the groups of the principal that it counts. -/
theorem says_shareCondition (named : List Uuid) :
    (shareCondition principal named).Says (.record record)
      (Accepts principal record (share named)) := by
  have hcounted : ∀ group, group ∈ countedGroups principal named ↔
      group ∈ principal.groupIds ∧ (named = [] ∨ group ∈ named) := by
    intro group
    rw [countedGroups]
    split <;> simp_all
  rw [accepts_share_iff, shareCondition]
  by_cases hempty : countedGroups principal named = []
  · rw [hempty]
    refine says_nothing ?_
    rintro ⟨group, -, hgroup⟩
    simpa [hempty] using (hcounted group).mpr hgroup
  · have hsome : (countedGroups principal named).isEmpty = false := by simpa using hempty
    simp only [hsome, Bool.false_eq_true, if_false]
    refine ⟨record.groupIds.any (countedGroups principal named).contains, rfl, ?_⟩
    simp [hcounted]

/-! ### Trees -/

mutual

/-- The **condition of a tree** says of a record that the tree accepts it, if its data has fields or
is empty. -/
theorem says_condition (hdata : dataFault? record.data = none) :
    ∀ tree, (condition principal tree).Says (.record record) (Accepts principal record tree)
  | combine .and parts => (says_conjunction hdata parts).congr accepts_and_iff.symm
  | combine .or parts => (says_disjunction hdata parts).congr accepts_or_iff.symm
  | compare category field operator => says_compareCondition hdata category field operator
  | share named => says_shareCondition named

theorem says_conjunction (hdata : dataFault? record.data = none) :
    ∀ parts, (allOf (conditions principal parts)).Says (.record record)
      (∀ part ∈ parts, Accepts principal record part)
  | [] => says_allOf_nil.congr (by simp)
  | part :: rest =>
    (says_allOf_cons (says_condition hdata part) (says_conjunction hdata rest)).congr
      List.forall_mem_cons.symm

theorem says_disjunction (hdata : dataFault? record.data = none) :
    ∀ parts, (anyOf (conditions principal parts)).Says (.record record)
      (∃ part ∈ parts, Accepts principal record part)
  | [] => says_anyOf_nil.congr (by simp)
  | part :: rest =>
    (says_anyOf_cons (says_condition hdata part) (says_disjunction hdata rest)).congr
      (List.exists_mem_cons_iff ..).symm

end

/-- **A compiled rule means what its tree says**: on a record whose data has fields the
condition has an answer, and the answer is yes just when the tree accepts the record. That is
the condition which a stored rule is compiled to when the tree is read from it. -/
theorem compiled_accepts_iff (tree : RuleTree) (principal : Principal) (record : Record)
    (hdata : record.data = .object members) :
    (∃ answer, (tree.condition principal).check (.record record) = .ok answer ∧
      (answer = true ↔ tree.Accepts principal record)) ∧
    ∀ limit document, read limit document = .ok tree →
      compileRule limit principal document = .ok (tree.condition principal) := by
  have hfault : dataFault? record.data = none := by rw [hdata, dataFault?]
  refine ⟨says_condition hfault tree, fun limit document hread => ?_⟩
  rw [compileRule, hread]
  rfl

/-- A rule of two levels: the record is not at a site of the principal's, and it mentions the
principal's team or they share a group. -/
def elsewhereInTeam : RuleTree :=
  .combine .and [.compare 1 "site" .doesNotContain,
    .combine .or [.share [7], .compare 2 "note" .contains],
    .combine .and []]

/-- So it accepts a record that mentions the team in capitals, while a record without a site
is not elsewhere. -/
theorem compiled_accepts_iff_elsewhereInTeam :
    let principal : Principal :=
      { userId := 3, groupIds := [8],
        attributes := [(1, ["North", "east"]), (2, ["blue"])] }
    let record (data : Members) : Record := { data := .object data, groupIds := [8] }
    elsewhereInTeam.Accepts principal
        (record [("site", .text "South"), ("note", .text "Team BLUE, not red")]) ∧
      ¬ elsewhereInTeam.Accepts principal (record [("note", .text "Team BLUE, not red")]) := by
  intro principal record
  constructor
  · obtain ⟨⟨answer, hanswer, hiff⟩, -⟩ := compiled_accepts_iff elsewhereInTeam principal
      (record [("site", .text "South"), ("note", .text "Team BLUE, not red")]) rfl
    have hyes : answer = true := by
      simpa using hanswer.symm.trans (show _ = Except.ok true by decide +kernel)
    exact hiff.mp hyes
  · obtain ⟨⟨answer, hanswer, hiff⟩, -⟩ := compiled_accepts_iff elsewhereInTeam principal
      (record [("note", .text "Team BLUE, not red")]) rfl
    have hno : answer = false := by
      simpa using hanswer.symm.trans (show _ = Except.ok false by decide +kernel)
    rw [hno] at hiff
    exact fun haccepts => Bool.noConfusion (hiff.mpr haccepts)

end RuleTree

end Clearance
