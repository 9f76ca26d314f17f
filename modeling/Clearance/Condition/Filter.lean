import Clearance.Column.Carrier
import Clearance.Condition.Basic
import Clearance.Document.Path

/-!
# Filters

A **filter** is what a store evaluates on a row, in the three-valued logic of
`Clearance.Truth`. A row is selected when the filter is true of it.

`Clearance.Condition.filter` writes a condition as a filter on the rows of one kind.
Every comparison is guarded by a test that the column is not empty, so that the filter
of a condition is always true or false and survives negation. It can be written only
if the kind has the attributes that the condition names.

Constants are folded away while a filter is written, but only once: what a conjunction
or a disjunction with a constant part comes out as is *settled*, and stands as it is in
whatever it becomes a part of.

An operand that cannot be handed over to its column is *refused*, and then the filter
selects nothing at all. What else can go wrong is up to what evaluates the filter, and is told in
`Clearance.Engine.Basic`.
-/

namespace Clearance

/-- A **filter** on the rows of a store. -/
inductive Filter
  /-- A constant. -/
  | constant (value : Bool)
  /-- A constant that some parts have come out as. -/
  | settled (value : Bool)
  /-- All the parts. -/
  | all (parts : List Filter)
  /-- Some part. -/
  | any (parts : List Filter)
  /-- Not the part. -/
  | not (part : Filter)
  /-- The column is not empty. -/
  | present (column : String)
  /-- The column is empty. -/
  | absent (column : String)
  /-- The column equals the operand. -/
  | equals (column : String) (operand : Stored)
  /-- The column is among the operands. -/
  | among (column : String) (operands : List Stored)
  /-- The comparison with some operands, of which those with a fault are refused. -/
  | refused (count : Nat) (faults : List Fault)
  /-- A related row exists with one of the identifiers. -/
  | relatedExists (relationship : String) (ids : List Uuid)
  /-- A grant row exists under the type, for one of the roles if any are named. -/
  | grantExists (type : String) (roleIds : Option (List Uuid))
  /-- The member of the data is present and not empty. -/
  | memberPresent (field : String)
  /-- The member of the data is a text. -/
  | memberIsText (field : String)
  /-- The member of the data is among the texts. -/
  | memberAmong (field : String) (texts : List String)
  /-- The member of the data, in lower case, matches the pattern. -/
  | memberLike (field : String) (pattern : List Char)
deriving Inhabited

namespace Filter

/-! ### Folding constants -/

/-- Whether a filter is this constant. -/
def isConstant (value : Bool) : Filter → Bool
  | constant other => other == value
  | _ => false

/-- The parts of a conjunction; any other filter is its own only part. -/
def conjuncts : Filter → List Filter
  | all parts => parts
  | filter => [filter]

/-- The parts of a disjunction; any other filter is its own only part. -/
def disjuncts : Filter → List Filter
  | any parts => parts
  | filter => [filter]

/-- The **conjunction** of some parts. A false part makes it false, true parts are left
out, and a single part stands for itself. -/
def conjunction (parts : List Filter) : Filter :=
  if parts.isEmpty then constant true
  else if parts.any (isConstant false) then settled false
  else
    match parts.filter (!isConstant true ·) with
    | [] => settled true
    | [part] => part
    | kept => all (kept.flatMap conjuncts)

/-- The **disjunction** of some parts. A true part makes it true, false parts are left
out, and a single part stands for itself. -/
def disjunction (parts : List Filter) : Filter :=
  if parts.isEmpty then constant false
  else if parts.any (isConstant true) then settled true
  else
    match parts.filter (!isConstant false ·) with
    | [] => settled false
    | [part] => part
    | kept => any (kept.flatMap disjuncts)

/-- The **negation** of a part. -/
def negation : Filter → Filter
  | constant value | settled value => constant !value
  | part => not part

/-! ### Members of stored data -/

/-- The member of a document under a field, if it is there. -/
def member? (data : Value) (field : String) : Option Value :=
  (Path.ofField field).walk? data

/-- The member of a document in the form of a text, which ends before the first NUL; an
empty member has none. -/
def memberText? (data : Value) (field : String) : Option (List Char) :=
  match member? data field with
  | none | some .null => none
  | some (.text text) => some (Text.untilNul text.toList)
  | some value => some value.written.toList

/-! ### Evaluation -/

/-- Whether a value is anything. -/
def isPresent (value : Stored) : Bool :=
  value != .empty

/-- Whether a grant row is of the type and, if roles are named, for one of them. -/
def grantMatches (type : String) (roleIds : Option (List Uuid)) (grant : Grant) : Bool :=
  grant.type == type &&
    match roleIds with
    | some ids => ids.contains grant.roleId
    | none => true

mutual

/-- The truth value of a filter on the row of an object. -/
def eval (entity : Entity) : Filter → Truth
  | constant value | settled value => some value
  | all parts => evalAll entity parts
  | any parts => evalAny entity parts
  | not part => (eval entity part).not
  | present column => some (isPresent (entity.cell column).stored)
  | absent column => some !(isPresent (entity.cell column).stored)
  | equals column operand => (entity.cell column).stored.equals operand
  | among column operands => (entity.cell column).stored.among operands
  | refused .. => none
  | relatedExists relationship ids => some (Condition.cellRelated ids (entity.cell relationship))
  | grantExists type roleIds => some (entity.grants.any (grantMatches type roleIds))
  | memberPresent field => some (memberText? entity.data field).isSome
  | memberIsText field =>
    (member? entity.data field).map fun value =>
      match value with
      | .text _ => true
      | _ => false
  | memberAmong field texts =>
    (memberText? entity.data field).map (texts.map String.toList).contains
  | memberLike field pattern =>
    (memberText? entity.data field).map fun text =>
      Text.like (Text.untilNul pattern) (text.map Char.toLower)

/-- The conjunction of a list of filters. -/
def evalAll (entity : Entity) : List Filter → Truth
  | [] => some true
  | part :: rest => (eval entity part).and (evalAll entity rest)

/-- The disjunction of a list of filters. -/
def evalAny (entity : Entity) : List Filter → Truth
  | [] => some false
  | part :: rest => (eval entity part).or (evalAny entity rest)

end

/-- Whether the row of an object is **selected**. -/
def selects (filter : Filter) (entity : Entity) : Bool :=
  filter.eval entity == some true

/-! ### Refused operands -/

mutual

/-- The faults of the operands that a filter has been refused, from the left. -/
def refusals : Filter → List Fault
  | all parts | any parts => refusalsOf parts
  | not part => refusals part
  | refused _ faults => faults
  | _ => []

/-- The faults of the refused operands in a list of filters. -/
def refusalsOf : List Filter → List Fault
  | [] => []
  | part :: rest => refusals part ++ refusalsOf rest

end

end Filter

/-! ### Writing a condition as a filter -/

namespace Condition

/-- The column of a kind that a comparison is about. -/
def comparable (kind : Kind) (field : String) : Except Fault Column :=
  match kind.column? field with
  | none => .error .missingAttribute
  | some .related | some .parts | some .loaded => .error .incomparable
  | some column => .ok column

/-- The filter of a comparison with one operand. -/
def equalsFilter (kind : Kind) (field : String) (operand : Operand) : Except Fault Filter := do
  let column ← comparable kind field
  match operand with
  | .value .null => return .all [.present field, .absent field]
  | operand =>
    match column.take operand with
    | .ok stored => return .all [.present field, .equals field stored]
    | .error fault => return .all [.present field, .refused 1 [fault]]

/-- The filter of a comparison with several operands; without any it is false
whatever the attribute. -/
def amongFilter (kind : Kind) (field : String) (operands : List Operand) : Except Fault Filter :=
  if operands.isEmpty then .ok (.constant false)
  else do
    let column ← comparable kind field
    let taken := column.takeAll operands
    let faults := taken.filterMap fun operand =>
      match operand with
      | .error fault => some fault
      | .ok _ => none
    match faults with
    | [] => return .all [.present field, .among field (taken.filterMap Except.toOption)]
    | faults => return .all [.present field, .refused operands.length faults]

/-- The filter of a relationship; without identifiers it is false whatever the
attribute. -/
def relatedFilter (kind : Kind) (relationship : String) (ids : List Uuid) :
    Except Fault Filter :=
  if ids.isEmpty then .ok (.constant false)
  else
    match kind.column? relationship with
    | some .related | some .parts => .ok (.relatedExists relationship ids)
    | some .loaded => .error .singular
    | some _ | none => .error .missingAttribute

/-- The filter of a role list. -/
def grantedFilter (kind : Kind) (type : String) (roleIds : List Uuid) (openWhenEmpty : Bool) :
    Except Fault Filter :=
  match kind.column? "grants" with
  | none => .error .missingAttribute
  | some _ =>
    let granted : Filter :=
      if roleIds.isEmpty then .constant false else .grantExists type (some roleIds)
    .ok (if openWhenEmpty then .disjunction [granted, .not (.grantExists type none)] else granted)

/-- The pattern that a value is turned into by an operator. -/
def pattern (operator : Operator) (value : String) : List Char :=
  let middle := (Text.escapedPattern value.toList).map Char.toLower
  match operator with
  | .startsWith => middle ++ ['%']
  | .endsWith => '%' :: middle
  | _ => '%' :: middle ++ ['%']

/-- The tests of a field of the data against the user's values. -/
def dataTests (field : String) (operator : Operator) (values : List String) : List Filter :=
  match operator with
  | .equal => [.memberAmong field values]
  | .notEqual => [.not (.memberAmong field values)]
  | .doesNotContain => values.map fun value => .not (.memberLike field (pattern operator value))
  | _ => [.disjunction (values.map fun value => .memberLike field (pattern operator value))]

/-- The filter of a field of the data; without values it is false whatever the
kind. -/
def dataFilter (kind : Kind) (field : String) (operator : Operator) (values : List String) :
    Except Fault Filter :=
  if values.isEmpty then .ok (.constant false)
  else
    match kind.column? "data" with
    | none => .error .missingAttribute
    | some _ =>
      .ok (.all (.memberPresent field :: .memberIsText field :: dataTests field operator values))

mutual

/-- A condition written as a **filter** on the rows of a kind. -/
def filter (kind : Kind) : Condition → Except Fault Filter
  | always value => .ok (.constant value)
  | allOf parts => (filterEach kind parts).map .conjunction
  | anyOf parts => (filterEach kind parts).map .disjunction
  | not part => (filter kind part).map .negation
  | fieldEquals field operand => equalsFilter kind field operand
  | fieldIn field operands => amongFilter kind field operands
  | relatedIn relationship ids => relatedFilter kind relationship ids
  | granted type roleIds openWhenEmpty => grantedFilter kind type roleIds openWhenEmpty
  | dataField field operator values => dataFilter kind field operator values

/-- Every condition of a list written as a filter. -/
def filterEach (kind : Kind) : List Condition → Except Fault (List Filter)
  | [] => .ok []
  | part :: rest => do
    let part ← filter kind part
    let rest ← filterEach kind rest
    return part :: rest

end

end Condition

end Clearance
