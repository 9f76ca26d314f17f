import Clearance.Document.Access
import Clearance.Proofs.Column.Comparison
import Clearance.Proofs.Filter.Leaf
import Clearance.Proofs.Filter.Meaning

/-!
# The leaves of a condition as filters

A condition that *suits* a kind (`Clearance.Condition.suits`) names attributes that the kind
has, and compares them with operands of their type. Each of its leaves can then be written
as a filter, and the filter is true or false of every loaded row, never unknown
(`Clearance.Condition.IsRendered`): every comparison is guarded by a test that there is
something to compare.

Whether the filter is true of just the objects of which the leaf holds depends on how a
store reads. A column of documents is compared as it is written, and a text within a
document ends for a store before the first NUL. `Clearance.Condition.ReadsAlike` says what
this amounts to; for every leaf it is the exact condition for both to agree.

Of the store it is assumed that it finds under a field what the document holds there, and
that its patterns accept what the operators do (`Clearance.Condition.IsRead`).
-/

namespace Clearance

/-! ### Loaded objects -/

/-- An object as it is **loaded** from a store: its columns hold what they can hold, and the
data of a record has fields. -/
structure Entity.IsLoaded (entity : Entity) : Prop where
  /-- Every column holds what it can hold. -/
  typed : ∀ name, (entity.cell name).IsTyped
  /-- The data of a record is an object. -/
  data : entity.kind = .record → ∃ members, entity.data = .object members

/-- An object is loaded if its cells are. -/
theorem Entity.isLoaded_of_cells {entity : Entity}
    (hcells : ∀ entry ∈ entity.cells, entry.2.IsTyped)
    (hdata : entity.kind = .record → ∃ members, entity.data = .object members) :
    entity.IsLoaded where
  typed name := by
    rw [cell]
    cases hfound : entity.cells.lookup name with
    | none =>
      rw [Option.getD_none]
      rintro column held ⟨⟩
    | some found =>
      obtain ⟨before, after, hsplit, -⟩ := List.lookup_eq_some_iff.mp hfound
      exact hcells (name, found) (by simp [hsplit])
  data := hdata

/-- Whether an operand is nothing. -/
def Operand.isNothing : Operand → Bool
  | .value .null => true
  | _ => false

theorem Operand.eq_null_of_isNothing {operand : Operand} (h : operand.isNothing = true) :
    operand = .value .null := by
  cases operand with
  | id key => simp [isNothing] at h
  | value plain => cases plain <;> simp [isNothing] at h ⊢

namespace Condition

/-! ### Conditions that suit a kind -/

/-- Whether a column is that of a relationship. -/
def isRelationship : Option Column → Bool
  | some .related | some .parts => true
  | _ => false

mutual

/-- Whether a condition **suits** a kind: the kind has the attributes that it names, and
what they are compared with is of their type. -/
def suits (kind : Kind) : Condition → Bool
  | always _ => true
  | allOf parts | anyOf parts => suitEach kind parts
  | not part => suits kind part
  | fieldEquals field operand =>
    (kind.column? field).any fun column =>
      (column.isScalar || column == .document) && (operand.isNothing || column.suits operand)
  | fieldIn field operands =>
    (kind.column? field).any fun column => column.isScalar && operands.all column.suits
  | relatedIn relationship _ => isRelationship (kind.column? relationship)
  | granted .. => (kind.column? "grants").isSome
  | dataField .. => (kind.column? "data").isSome

/-- Whether all the conditions of a list suit a kind. -/
def suitEach (kind : Kind) : List Condition → Bool
  | [] => true
  | part :: rest => suits kind part && suitEach kind rest

end

/-! ### How a store reads -/

/-- A **test of a text** as a store makes it, with the pattern for a value. -/
def patternAccepts (operator : Operator) (text value : String) : Bool :=
  Text.like (Text.untilNul (pattern operator value))
    ((Text.untilNul text.toList).map Char.toLower)

mutual

/-- A condition that a store **reads** as it should in the data of an object: under every
field it finds what is held there, and a pattern accepts the text if the operator does. -/
def IsRead (entity : Entity) : Condition → Prop
  | allOf parts | anyOf parts => AreRead entity parts
  | not part => IsRead entity part
  | dataField field operator values =>
    Filter.member? entity.data field = entity.data.get? field ∧
      ∀ value ∈ values, operator ≠ .equal → operator ≠ .notEqual →
        ∀ text, memberText? entity.data field = some text →
          patternAccepts operator text value = operator.passes text value
  | _ => True

/-- Whether a store reads all the conditions of a list as it should. -/
def AreRead (entity : Entity) : List Condition → Prop
  | [] => True
  | part :: rest => IsRead entity part ∧ AreRead entity rest

end

mutual

/-- A condition whose leaves are **read alike** in a store and in memory. A list or an
object equals another if it is written alike, and a text equals a value if the part of it
before the first NUL does. -/
def ReadsAlike (entity : Entity) : Condition → Prop
  | allOf parts | anyOf parts => ReadAlike entity parts
  | not part => ReadsAlike entity part
  | fieldEquals field (.value plain) =>
    ∀ held, entity.cell field = .content .document held →
      held.isAtom = false → plain.isAtom = false →
        (held.written = plain.written ↔ held.same plain = true)
  | dataField field .equal values | dataField field .notEqual values =>
    ∀ text, memberText? entity.data field = some text →
      (Text.untilNul text.toList ∈ values.map String.toList ↔ text ∈ values)
  | _ => True

/-- Whether the leaves of all the conditions of a list are read alike. -/
def ReadAlike (entity : Entity) : List Condition → Prop
  | [] => True
  | part :: rest => ReadsAlike entity part ∧ ReadAlike entity rest

end

/-- Whether a condition is a leaf. -/
def isLeaf : Condition → Bool
  | allOf _ | anyOf _ | not _ => false
  | _ => true

/-! ### Filters that render a condition -/

/-- A filter that **renders** a condition on the rows of a kind. -/
structure IsRendered (kind : Kind) (condition : Condition) (filter : Filter) : Prop where
  /-- The condition is written as the filter. -/
  written : condition.filter kind = .ok filter
  /-- No operand of the filter is refused. -/
  taken : filter.refusals = []
  /-- The filter is true or false of every loaded row, and if the row is read as it should
  be, it is true just when the condition holds, provided that the leaves are read alike. For
  a leaf there is no other way. -/
  definite : ∀ row : Entity, row.kind = kind → row.IsLoaded → ∃ answer,
    filter.eval row = some answer ∧ (condition.IsRead row →
      (condition.ReadsAlike row → answer = condition.holds row) ∧
      (condition.isLeaf = true → answer = condition.holds row → condition.ReadsAlike row))

variable {kind : Kind} {field : String} {operand : Operand} {column : Column}

/-- A leaf that is read alike on every row, and renders as a filter that says what it
says. -/
theorem isRendered_of_eq {condition : Condition} {filter : Filter}
    (hwritten : condition.filter kind = .ok filter)
    (htaken : filter.refusals = [])
    (hread : ∀ row, condition.ReadsAlike row)
    (heval : ∀ row : Entity, row.kind = kind → row.IsLoaded →
      filter.eval row = some (condition.holds row)) :
    IsRendered kind condition filter where
  written := hwritten
  taken := htaken
  definite row hkind hloaded :=
    ⟨_, heval row hkind hloaded, fun _ => ⟨fun _ => rfl, fun _ _ => hread row⟩⟩

/-! ### Columns -/

theorem eval_guarded {row : Entity} {leaf : Filter} :
    Filter.eval row (.all [.present field, leaf]) =
      Truth.and (some (Filter.isPresent (row.cell field).stored)) (leaf.eval row) := by
  rw [Filter.eval_all, Filter.evalAll_cons, Filter.evalAll_cons, Filter.evalAll_nil, Truth.and_true,
    Filter.eval]

theorem comparable_eq (hcolumn : kind.column? field = some column)
    (h : (column.isScalar || column == .document) = true) :
    comparable kind field = .ok column := by
  rw [comparable, hcolumn]
  cases column <;> first | rfl | simp [Column.isScalar] at h

/-- A comparison with nothing is never true. -/
theorem isRendered_fieldEquals_nothing (hfound : comparable kind field = .ok column) :
    IsRendered kind (fieldEquals field (.value .null)) (.all [.present field, .absent field]) := by
  refine isRendered_of_eq ?_ rfl
    (fun row held _ _ h => absurd h (by decide)) fun row _ _ => ?_
  · rw [filter, equalsFilter, hfound]
    rfl
  · rw [eval_guarded, Filter.eval, holds, Cell.equals_nothing, Truth.and_some, Bool.and_not_self]

/-- What is handed over is compared with, -/
theorem equalsFilter_of_take {taken : Stored} (hfound : comparable kind field = .ok column)
    (hnull : operand ≠ .value .null) (htake : column.take operand = .ok taken) :
    equalsFilter kind field operand = .ok (.all [.present field, .equals field taken]) := by
  rw [equalsFilter, hfound]
  cases operand with
  | id key => simp [htake, bind, Except.bind, pure, Except.pure]
  | value plain =>
    cases plain with
    | null => exact absurd rfl hnull
    | _ => simp [htake, bind, Except.bind, pure, Except.pure]

/-- and so are several operands. -/
theorem amongFilter_of_takeAll {operands : List Operand} {taken : List Stored}
    (hfound : comparable kind field = .ok column) (hne : operands ≠ [])
    (htaken : column.takeAll operands = taken.map .ok) :
    amongFilter kind field operands = .ok (.all [.present field, .among field taken]) := by
  rw [amongFilter, if_neg (by simpa using hne), hfound]
  simp only [bind, Except.bind, htaken]
  simp [Except.toOption, pure, Except.pure, List.filterMap_map, Function.comp_def]

theorem equalsFilter_eq (hfound : comparable kind field = .ok column)
    (hsuits : column.suits operand = true) :
    equalsFilter kind field operand =
      .ok (.all [.present field, .equals field (Column.stored operand)]) := by
  refine equalsFilter_of_take hfound ?_ (Column.take_of_suits hsuits)
  rintro rfl
  cases column <;> simp [Column.suits] at hsuits

/-- A comparison of a scalar column says what the cell says. -/
theorem isRendered_fieldEquals_scalar (hcolumn : kind.column? field = some column)
    (hscalar : column.isScalar = true) (hsuits : column.suits operand = true) :
    IsRendered kind (fieldEquals field operand)
      (.all [.present field, .equals field (Column.stored operand)]) := by
  have hfound := comparable_eq hcolumn (by rw [hscalar, Bool.true_or])
  refine isRendered_of_eq (equalsFilter_eq hfound hsuits)
    rfl (fun row => ?_) fun row hkind hloaded => ?_
  · rcases Column.suits_cases hsuits with ⟨key, rfl, rfl⟩ | ⟨spelling, rfl, rfl⟩ |
      ⟨isSet, rfl, rfl⟩ | ⟨plain, rfl, rfl, hatom⟩
    · trivial
    · intro held _ _ hatom
      simp [Value.isAtom] at hatom
    · intro held _ _ hatom
      simp [Value.isAtom] at hatom
    · simp [Column.isScalar] at hscalar
  · subst hkind
    rw [eval_guarded, Filter.eval, holds]
    exact Cell.eval_equals (Entity.fits_cell hcolumn) hscalar (hloaded.typed field) hsuits

/-- A comparison of a column of documents says whether they are written alike. -/
theorem isRendered_fieldEquals_document {plain : Value}
    (hcolumn : kind.column? field = some .document) (hplain : plain.isAtom = false) :
    IsRendered kind (fieldEquals field (.value plain))
      (.all [.present field, .equals field (.text plain.written)]) where
  written := by
    have hsuits : Column.document.suits (.value plain) = true := by
      cases plain <;> first | rfl | simp [Value.isAtom] at hplain
    have hstored : Column.stored (.value plain) = .text plain.written := by
      cases plain <;> first | rfl | simp [Value.isAtom] at hplain
    rw [filter, equalsFilter_eq (comparable_eq hcolumn rfl) hsuits, hstored]
  taken := rfl
  definite row hkind hloaded := by
    subst hkind
    obtain ⟨held, hheld⟩ := Entity.fits_cell hcolumn
    -- such a column is never empty, so the guard is always true
    obtain ⟨hpresent, hequals⟩ : (row.cell field).stored ≠ .empty ∧
        (row.cell field).stored.equals (.text plain.written) =
          some (!held.isAtom && held.written == plain.written) := by
      rw [hheld]
      exact Cell.equals_stored_document hplain
    refine ⟨!held.isAtom && held.written == plain.written, ?_, fun _ => ?_⟩
    · rw [eval_guarded, Filter.eval, Cell.isPresent_iff.mpr hpresent, hequals, Truth.true_and]
    · rw [holds, hheld, Cell.equals_document hplain]
      constructor
      · intro hread
        cases hatom : held.isAtom with
        | true => rfl
        | false =>
          have hsame := hread held hheld hatom hplain
          rw [Bool.eq_iff_iff]
          simpa using hsame
      · -- conversely the two answers are equal only if the texts and the documents are
        intro _ hanswer other hother hatom _
        obtain rfl : held = other := by
          rw [hheld] at hother
          exact (Cell.content.inj hother).2
        rw [Bool.eq_iff_iff] at hanswer
        simpa [hatom] using hanswer

/-- **A comparison with an operand** of the type of the column. -/
theorem isRendered_fieldEquals (h : (fieldEquals field operand).suits kind = true) :
    ∃ filter, IsRendered kind (fieldEquals field operand) filter := by
  rw [suits] at h
  obtain ⟨column, hcolumn, hsuits⟩ := (Option.any_eq_true _ _).mp h
  obtain ⟨hcomparable, hoperand⟩ := Bool.and_eq_true_iff.mp hsuits
  rcases Bool.or_eq_true_iff.mp hoperand with hnothing | hsuits
  · obtain rfl := Operand.eq_null_of_isNothing hnothing
    exact ⟨_, isRendered_fieldEquals_nothing (comparable_eq hcolumn hcomparable)⟩
  · rcases Bool.or_eq_true_iff.mp hcomparable with hscalar | hdocument
    · exact ⟨_, isRendered_fieldEquals_scalar hcolumn hscalar hsuits⟩
    · obtain rfl : column = .document := beq_iff_eq.mp hdocument
      obtain ⟨plain, rfl, hplain⟩ : ∃ plain, operand = .value plain ∧ plain.isAtom = false := by
        simpa using Column.suits_cases hsuits
      exact ⟨_, isRendered_fieldEquals_document hcolumn hplain⟩

/-- **A comparison with several operands** of the type of the column. -/
theorem isRendered_fieldIn {operands : List Operand}
    (h : (fieldIn field operands).suits kind = true) :
    ∃ filter, IsRendered kind (fieldIn field operands) filter := by
  rw [suits] at h
  obtain ⟨column, hcolumn, hsuits⟩ := (Option.any_eq_true _ _).mp h
  obtain ⟨hscalar, hoperands⟩ := Bool.and_eq_true_iff.mp hsuits
  have hfound := comparable_eq hcolumn (by rw [hscalar, Bool.true_or])
  cases operands with
  | nil =>
    refine ⟨.constant false, isRendered_of_eq rfl rfl (fun _ => trivial) fun row _ _ => ?_⟩
    rw [Filter.eval, holds, List.any_nil]
  | cons first rest =>
    have hwritten : (fieldIn field (first :: rest)).filter kind =
        .ok (.all [.present field, .among field ((first :: rest).map Column.stored)]) := by
      refine amongFilter_of_takeAll hfound (List.cons_ne_nil _ _) ?_
      rw [Column.takeAll_of_suits hscalar hoperands, List.map_map]
      rfl
    refine ⟨_, isRendered_of_eq hwritten
      rfl (fun _ => trivial) fun row hkind hloaded => ?_⟩
    subst hkind
    rw [eval_guarded, Filter.eval, holds]
    exact Cell.eval_among (Entity.fits_cell hcolumn) hscalar (hloaded.typed field) hoperands

/-- **A test for related objects.** -/
theorem isRendered_relatedIn {ids : List Uuid} (h : (relatedIn field ids).suits kind = true) :
    ∃ filter, IsRendered kind (relatedIn field ids) filter := by
  rw [suits] at h
  cases ids with
  | nil =>
    refine ⟨.constant false, isRendered_of_eq rfl rfl (fun _ => trivial) fun row _ _ => ?_⟩
    rw [Filter.eval, holds]
    cases row.cell field <;> simp [cellRelated]
  | cons first rest =>
    have hwritten : (relatedIn field (first :: rest)).filter kind =
        .ok (.relatedExists field (first :: rest)) := by
      rw [filter, relatedFilter]
      cases hcolumn : kind.column? field with
      | none => simp [hcolumn, isRelationship] at h
      | some column =>
        cases column <;> first | rfl | simp [hcolumn, isRelationship] at h
    refine ⟨_, isRendered_of_eq hwritten rfl
      (fun _ => trivial) fun row _ _ => ?_⟩
    rw [Filter.eval, holds]

/-- A list grants a type if it lists one of the roles, or nobody while the type is open. -/
theorem listGrants_eq (grants : List Grant) (type : String) (roleIds : List Uuid)
    (openWhenEmpty : Bool) :
    listGrants grants type roleIds openWhenEmpty =
      (grants.any (Filter.grantMatches type (some roleIds)) ||
        (openWhenEmpty && !grants.any (Filter.grantMatches type none))) := by
  have hlisted : ((grants.filter fun grant => grant.type == type).any fun grant =>
      roleIds.contains grant.roleId) = grants.any (Filter.grantMatches type (some roleIds)) :=
    List.any_filter
  have hempty : (grants.filter fun grant => grant.type == type).isEmpty =
      !grants.any (Filter.grantMatches type none) := by
    rw [Bool.eq_iff_iff]
    simp [Filter.grantMatches]
  rw [listGrants]
  cases hnobody : (grants.filter fun grant => grant.type == type).isEmpty with
  | true =>
    have hnone : grants.any (Filter.grantMatches type (some roleIds)) = false := by
      rw [← hlisted, List.isEmpty_iff.mp hnobody, List.any_nil]
    rw [if_pos rfl, hnone, ← hempty, hnobody, Bool.and_true, Bool.false_or]
  | false =>
    rw [if_neg Bool.false_ne_true, hlisted, ← hempty, hnobody, Bool.and_false, Bool.or_false]

/-- **A test of a role list.** -/
theorem isRendered_granted {type : String} {roleIds : List Uuid} {openWhenEmpty : Bool}
    (h : (granted type roleIds openWhenEmpty).suits kind = true) :
    ∃ filter, IsRendered kind (granted type roleIds openWhenEmpty) filter := by
  rw [suits] at h
  obtain ⟨column, hcolumn⟩ := Option.isSome_iff_exists.mp h
  have hwritten : (granted type roleIds openWhenEmpty).filter kind = .ok
      (if openWhenEmpty then
        .disjunction [if roleIds.isEmpty then .constant false else .grantExists type (some roleIds),
          .not (.grantExists type none)]
      else if roleIds.isEmpty then .constant false else .grantExists type (some roleIds)) := by
    rw [filter, grantedFilter, hcolumn]
  -- the test for the roles folds away when there are none
  have hlisted : Filter.refusals
      (if roleIds.isEmpty then .constant false else .grantExists type (some roleIds)) = [] := by
    split <;> rfl
  refine ⟨_, isRendered_of_eq hwritten ?_ (fun _ => trivial) fun row _ _ => ?_⟩
  · split
    · refine Filter.refusals_disjunction ?_
      simp only [List.forall_mem_cons]
      exact ⟨hlisted, rfl, by simp⟩
    · exact hlisted
  · have heval : Filter.eval row
        (if roleIds.isEmpty then .constant false else .grantExists type (some roleIds)) =
        some (row.grants.any (Filter.grantMatches type (some roleIds))) := by
      split
      · next hnobody =>
        rw [Filter.eval, List.isEmpty_iff.mp hnobody]
        simp [Filter.grantMatches]
      · rw [Filter.eval]
    rw [holds, listGrants_eq]
    cases openWhenEmpty with
    | true =>
      rw [if_pos rfl, Filter.eval_disjunction, Filter.evalAny_cons, heval, Filter.evalAny_cons,
        Filter.evalAny_nil, Filter.eval_not, Filter.eval, Truth.or_false, Truth.not_some,
        Truth.or_some, Bool.true_and]
    | false =>
      rw [if_neg Bool.false_ne_true, heval, Bool.false_and, Bool.or_false]

/-! ### Fields of the data -/

/-- Whether a store **accepts** a text that it has found under a field. -/
def storeAccepts (operator : Operator) (text : String) (values : List String) : Bool :=
  match operator with
  | .equal => (values.map String.toList).contains (Text.untilNul text.toList)
  | .notEqual => !(values.map String.toList).contains (Text.untilNul text.toList)
  | .doesNotContain => values.all fun value => !patternAccepts operator text value
  | _ => values.any (patternAccepts operator text)

section Data

variable {operator : Operator} {values : List String} {row : Entity}

/-- The tests of a text that a store has found. -/
theorem evalAll_dataTests {text : String}
    (h : Filter.member? row.data field = some (.text text)) :
    Filter.evalAll row (dataTests field operator values) =
      some (storeAccepts operator text values) := by
  have htext : Filter.memberText? row.data field = some (Text.untilNul text.toList) := by
    rw [Filter.memberText?, h]
  have hlike : ∀ value, Filter.eval row (.memberLike field (pattern operator value)) =
      some (patternAccepts operator text value) := by
    intro value
    rw [Filter.eval, htext]
    rfl
  have hamong : Filter.eval row (.memberAmong field values) =
      some ((values.map String.toList).contains (Text.untilNul text.toList)) := by
    rw [Filter.eval, htext]
    rfl
  have hany : Filter.eval row (.disjunction (values.map fun value =>
      .memberLike field (pattern operator value))) =
        some (values.any (patternAccepts operator text)) := by
    rw [Filter.eval_disjunction]
    exact Filter.evalAny_map fun value _ => hlike value
  have hall : Filter.evalAll row (values.map fun value =>
      .not (.memberLike field (pattern operator value))) =
        some (values.all fun value => !patternAccepts operator text value) :=
    Filter.evalAll_map fun value _ => by rw [Filter.eval_not, hlike, Truth.not_some]
  cases operator with
  | equal =>
    rw [dataTests, Filter.evalAll_cons, Filter.evalAll_nil, hamong, Truth.and_true, storeAccepts]
  | notEqual =>
    rw [dataTests, Filter.evalAll_cons, Filter.evalAll_nil, Filter.eval_not, hamong, Truth.and_true,
      Truth.not_some, storeAccepts]
  | doesNotContain => rw [dataTests, hall, storeAccepts]
  | contains | startsWith | endsWith =>
    rw [dataTests, Filter.evalAll_cons, Filter.evalAll_nil, hany, Truth.and_true, storeAccepts] <;>
      simp

/-- The text that a store finds under a field; other values do not count. -/
def readText? (data : Value) (field : String) : Option String :=
  match Filter.member? data field with
  | some (.text text) => some text
  | _ => none

/-- **The filter of a field** is true when the store finds a text and accepts it, and false
otherwise. -/
theorem eval_dataFilter :
    Filter.eval row
        (.all (.memberPresent field :: .memberIsText field :: dataTests field operator values)) =
      some ((readText? row.data field).any fun text => storeAccepts operator text values) := by
  rw [Filter.eval_all, Filter.evalAll_cons, Filter.evalAll_cons]
  cases hmember : Filter.member? row.data field with
  | none => simp [Filter.eval, Filter.memberText?, readText?, hmember]
  | some found =>
    cases found with
    | text text =>
      rw [evalAll_dataTests hmember]
      simp [Filter.eval, Filter.memberText?, readText?, hmember]
    | _ => simp [Filter.eval, Filter.memberText?, readText?, hmember]

/-- The tests of a field have no operands that could be refused. -/
theorem refusals_dataFilter : Filter.refusals
    (.all (.memberPresent field :: .memberIsText field :: dataTests field operator values)) =
      [] := by
  refine Filter.refusals_all (List.forall_mem_cons.mpr ⟨rfl, List.forall_mem_cons.mpr ⟨rfl, ?_⟩⟩)
  have hmember : ∀ part ∈ values.map fun value => Filter.memberLike field (pattern operator value),
      part.refusals = [] := by
    intro part hpart
    obtain ⟨value, -, rfl⟩ := List.mem_map.mp hpart
    rfl
  cases operator with
  | equal | notEqual => simp [dataTests, Filter.refusals]
  | doesNotContain =>
    intro part hpart
    obtain ⟨value, -, rfl⟩ := List.mem_map.mp hpart
    rfl
  | contains | startsWith | endsWith =>
    intro part hpart
    obtain rfl := List.mem_singleton.mp hpart
    exact Filter.refusals_disjunction hmember

/-- If the store finds what is held, it finds the text that is held. -/
theorem readText?_eq {data : Value} (h : Filter.member? data field = data.get? field) :
    readText? data field = memberText? data field := by
  rw [readText?, h]
  cases data <;> rfl

theorem holds_dataField (hvalues : values ≠ []) :
    (dataField field operator values).holds row =
      (memberText? row.data field).any fun text => operator.accepts text values := by
  rw [holds, dataAccepts, if_neg (by simpa using hvalues)]
  cases memberText? row.data field <;> rfl

variable {text : String}

/-- The operators that compare exactly agree when the part before the first NUL is one of
the values just when the text is. -/
theorem storeAccepts_eq_iff (h : operator = .equal ∨ operator = .notEqual) :
    storeAccepts operator text values = operator.accepts text values ↔
      (Text.untilNul text.toList ∈ values.map String.toList ↔ text ∈ values) := by
  have hcontains : (values.any fun value => text == value) = values.contains text := by
    rw [Bool.eq_iff_iff]
    simp
  have hiff : (values.map String.toList).contains (Text.untilNul text.toList) =
      (values.any fun value => text == value) ↔
        (Text.untilNul text.toList ∈ values.map String.toList ↔ text ∈ values) := by
    rw [hcontains, Bool.eq_iff_iff, List.contains_iff_mem, List.contains_iff_mem]
  rcases h with rfl | rfl
  · exact hiff
  · exact Bool.not_inj_iff.trans hiff

/-- The operators that look for a part accept what they do when the texts are read in some way,
if their patterns do. -/
theorem storeAccepts_eq_of_read {read : String → String} (hequal : operator ≠ .equal)
    (hnotEqual : operator ≠ .notEqual)
    (h : ∀ value ∈ values,
      patternAccepts operator text value = operator.passes (read text) (read value)) :
    storeAccepts operator text values = operator.accepts (read text) (values.map read) := by
  have hany : values.any (patternAccepts operator text) =
      (values.map read).any (operator.passes (read text)) :=
    Bool.eq_iff_iff.mpr <| by
      rw [List.any_map, List.any_eq_true, List.any_eq_true]
      exact exists_congr fun value => and_congr_right fun hvalue => by rw [h value hvalue]; rfl
  cases operator with
  | equal => exact absurd rfl hequal
  | notEqual => exact absurd rfl hnotEqual
  | doesNotContain => exact List.not_any_eq_all_not.symm.trans (congrArg Bool.not hany)
  | contains | startsWith | endsWith => exact hany

/-- They agree when their patterns do. -/
theorem storeAccepts_eq (hequal : operator ≠ .equal) (hnotEqual : operator ≠ .notEqual)
    (h : ∀ value ∈ values, patternAccepts operator text value = operator.passes text value) :
    storeAccepts operator text values = operator.accepts text values := by
  have hread : storeAccepts operator text values = operator.accepts (id text) (values.map id) :=
    storeAccepts_eq_of_read hequal hnotEqual h
  rwa [List.map_id] at hread

/-- **A test of a field of the data.** -/
theorem isRendered_dataField (h : (dataField field operator values).suits kind = true) :
    ∃ filter, IsRendered kind (dataField field operator values) filter := by
  rw [suits] at h
  obtain ⟨column, hcolumn⟩ := Option.isSome_iff_exists.mp h
  by_cases hvalues : values = []
  · subst hvalues
    refine ⟨.constant false, isRendered_of_eq rfl rfl (fun row => ?_) fun row _ _ => ?_⟩
    · cases operator <;> simp [ReadsAlike]
    · rw [Filter.eval, holds, dataAccepts]
      rfl
  · have hwritten : (dataField field operator values).filter kind =
        .ok (.all (.memberPresent field :: .memberIsText field ::
          dataTests field operator values)) := by
      rw [filter, dataFilter, if_neg (by simpa using hvalues), hcolumn]
    refine ⟨_, hwritten, refusals_dataFilter, fun row hkind hloaded =>
      ⟨_, eval_dataFilter, fun hread => ?_⟩⟩
    rw [holds_dataField hvalues, readText?_eq hread.1]
    cases htext : memberText? row.data field with
    | none =>
      refine ⟨fun _ => rfl, fun _ _ => ?_⟩
      cases operator <;> simp [ReadsAlike, htext]
    | some text =>
      rw [Option.any_some, Option.any_some]
      -- only the operators that compare exactly ask how a text is read
      by_cases hexact : operator = .equal ∨ operator = .notEqual
      · rw [storeAccepts_eq_iff hexact]
        rcases hexact with rfl | rfl <;> simp [ReadsAlike, htext]
      · obtain ⟨hequal, hnotEqual⟩ := not_or.mp hexact
        have hsame := storeAccepts_eq hequal hnotEqual fun value hvalue =>
          hread.2 value hvalue hequal hnotEqual text htext
        refine ⟨fun _ => hsame, fun _ _ => ?_⟩
        cases operator <;> trivial

end Data

end Condition

end Clearance
