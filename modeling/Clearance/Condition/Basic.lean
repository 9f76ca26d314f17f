import Clearance.Entity.Cell
import Clearance.Error
import Clearance.Rule.Operator

/-!
# Conditions

A **condition** is a predicate on objects, built from six kinds of leaves by
conjunction, disjunction and negation. This file says when a condition *holds* of
an object in memory (`Clearance.Condition.holds`); the filter that selects the
same objects from a store is in `Clearance.Condition.Filter`.

A leaf that compares a cell does not hold of an empty one. Stored data may have a
shape that a leaf cannot look into: `Clearance.Condition.check` walks through a
condition in the order in which its parts decide, and reports the first such
fault it meets.
-/

namespace Clearance

/-- A **condition** on objects. -/
inductive Condition
  /-- Holds of every object, or of none. -/
  | always (value : Bool)
  /-- Holds when all the parts hold. -/
  | allOf (parts : List Condition)
  /-- Holds when some part holds. -/
  | anyOf (parts : List Condition)
  /-- Holds when the part does not. -/
  | not (part : Condition)
  /-- The cell of the field holds the operand. -/
  | fieldEquals (field : String) (operand : Operand)
  /-- The cell of the field holds one of the operands. -/
  | fieldIn (field : String) (operands : List Operand)
  /-- Some object of the relationship is one of those named. -/
  | relatedIn (relationship : String) (ids : List Uuid)
  /-- One of the roles is listed under the permission type, or nobody is and the
  type is open. -/
  | granted (type : String) (roleIds : List Uuid) (openWhenEmpty : Bool)
  /-- The text under a field of the record's data is accepted. -/
  | dataField (field : String) (operator : Operator) (values : List String)
deriving Inhabited

namespace Condition

/-- The condition that every object meets. -/
def everything : Condition := always true

/-- The condition that no object meets. -/
def nothing : Condition := always false

/-- The conjunction of some conditions; a single one is itself. -/
def all : List Condition → Condition
  | [part] => part
  | parts => allOf parts

/-- The disjunction of some conditions; a single one is itself. -/
def any : List Condition → Condition
  | [part] => part
  | parts => anyOf parts

/-- Whether a condition is the constant that no object meets. -/
def isNothing : Condition → Bool
  | always false => true
  | _ => false

/-! ### Leaves -/

/-- Whether the cell of a relationship leads to one of the objects named. -/
def cellRelated (ids : List Uuid) : Cell → Bool
  | .related related => related.any ids.contains
  | _ => false

/-- Whether the entries of an object's role lists grant a permission type. -/
def listGrants (grants : List Grant) (type : String) (roleIds : List Uuid)
    (openWhenEmpty : Bool) : Bool :=
  let entries := grants.filter fun grant => grant.type == type
  if entries.isEmpty then openWhenEmpty
  else entries.any fun grant => roleIds.contains grant.roleId

/-- The text under a field of a record's data; other values do not count. -/
def memberText? (data : Value) (field : String) : Option String :=
  match data with
  | .object members =>
    match Members.get? members field with
    | some (.text text) => some text
    | _ => none
  | _ => none

/-- Whether the text under a field of a record's data is accepted. Without
values none is. -/
def dataAccepts (data : Value) (field : String) (operator : Operator)
    (values : List String) : Bool :=
  if values.isEmpty then false
  else
    match memberText? data field with
    | some text => operator.accepts text values
    | none => false

/-! ### Truth in memory -/

mutual

/-- Whether a condition **holds** of an object. -/
def holds (entity : Entity) : Condition → Bool
  | always value => value
  | allOf parts => holdAll entity parts
  | anyOf parts => holdAny entity parts
  | not part => !holds entity part
  | fieldEquals field operand => (entity.cell field).equals operand
  | fieldIn field operands => operands.any (entity.cell field).equals
  | relatedIn relationship ids => cellRelated ids (entity.cell relationship)
  | granted type roleIds openWhenEmpty => listGrants entity.grants type roleIds openWhenEmpty
  | dataField field operator values => dataAccepts entity.data field operator values

/-- Whether all the conditions of a list hold. -/
def holdAll (entity : Entity) : List Condition → Bool
  | [] => true
  | part :: rest => holds entity part && holdAll entity rest

/-- Whether some condition of a list holds. -/
def holdAny (entity : Entity) : List Condition → Bool
  | [] => false
  | part :: rest => holds entity part || holdAny entity rest

end

/-! ### Faults of stored data -/

/-- Whether a cell can be looked for in a set: lists and objects cannot. -/
def cellFault? : Cell → Option Fault
  | .content _ document => if document.isAtom then none else some .wrongShape
  | .related _ | .parts _ => some .wrongShape
  | _ => none

/-- Whether a cell leads to objects that have identifiers. -/
def relationFault? : Cell → Option Fault
  | .null | .related _ | .parts _ => none
  | .id _ | .loaded => some .wrongShape
  | .content _ document =>
    if document.isEmpty then none
    else
      match document with
      | .list _ | .object _ | .text _ => some .missingAttribute
      | _ => some .wrongShape

/-- Whether a record's data has fields. -/
def dataFault? (data : Value) : Option Fault :=
  match data with
  | .object _ => none
  | data => if data.isEmpty then none else some .missingAttribute

/-- The answer of a leaf, unless there is a fault. -/
def unlessFault (fault? : Option Fault) (answer : Bool) : Except Fault Bool :=
  match fault? with
  | some fault => .error fault
  | none => .ok answer

mutual

/-- Whether a condition holds of an object, or the first **fault** met while its
parts are tried from the left until one decides. -/
def check (entity : Entity) : Condition → Except Fault Bool
  | always value => .ok value
  | allOf parts => checkAll entity parts
  | anyOf parts => checkAny entity parts
  | not part => (check entity part).map Bool.not
  | fieldEquals field operand => .ok ((entity.cell field).equals operand)
  | fieldIn field operands =>
    unlessFault (cellFault? (entity.cell field)) (operands.any (entity.cell field).equals)
  | relatedIn relationship ids =>
    unlessFault (relationFault? (entity.cell relationship))
      (cellRelated ids (entity.cell relationship))
  | granted type roleIds openWhenEmpty =>
    .ok (listGrants entity.grants type roleIds openWhenEmpty)
  | dataField field operator values =>
    unlessFault (if values.isEmpty then none else dataFault? entity.data)
      (dataAccepts entity.data field operator values)

/-- Whether all the conditions of a list hold; the first that does not decides. -/
def checkAll (entity : Entity) : List Condition → Except Fault Bool
  | [] => .ok true
  | part :: rest =>
    match check entity part with
    | .ok true => checkAll entity rest
    | answer => answer

/-- Whether some condition of a list holds; the first that does decides. -/
def checkAny (entity : Entity) : List Condition → Except Fault Bool
  | [] => .ok false
  | part :: rest =>
    match check entity part with
    | .ok false => checkAny entity rest
    | answer => answer

end

end Condition

end Clearance
