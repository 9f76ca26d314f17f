import Clearance.Document.Display
import Clearance.Identifier.Basic
import Clearance.Vocabulary.Action
import Clearance.Vocabulary.Kind
import Clearance.Vocabulary.PermissionType

/-!
# Errors

An error is a **cause**; its words are read off it by one function. A stored rule
tree that is not in the grammar is reported with the *place* of the defect, a
path that starts at the root of the tree and names a member or counts a child at
every step.
-/

namespace Clearance

/-! ### Places in a rule tree -/

/-- One step down a stored rule tree. -/
inductive PlaceStep
  /-- To a child of a combinator. -/
  | child (index : Nat)
  /-- To a member of a node. -/
  | member (name : String)
deriving DecidableEq, Repr

/-- A **place** in a stored rule tree: the steps that lead there from the root. -/
abbrev Place := List PlaceStep

/-- How one step is written. -/
def PlaceStep.text : PlaceStep → String
  | .child index => s!".rules[{index}]"
  | .member name => "." ++ name

/-- How a place is written. -/
def Place.text (place : Place) : String :=
  "$" ++ String.join (place.map PlaceStep.text)

/-! ### Defects of rules -/

/-- What is wrong with a stored rule. -/
inductive Defect
  /-- A node lies below the deepest level allowed. -/
  | tooDeep (limit : Int)
  /-- A node is no object. -/
  | notObject (found : Value)
  /-- A node has none of the members that make a node. -/
  | unrecognised
  /-- A combinator joins its children in an unknown way. -/
  | unknownLogic (found : Value)
  /-- A combinator has no children member. -/
  | missingRules
  /-- The children of a combinator are no list. -/
  | rulesNotList
  /-- An attribute leaf is no object. -/
  | attributeNotObject
  /-- The category of an attribute leaf is no identifier. -/
  | categoryNotId
  /-- The field of an attribute leaf is no field name. -/
  | invalidField (found : Value)
  /-- An attribute leaf compares in an unknown way. -/
  | unknownOperator (found : Value)
  /-- The groups of a group leaf are no list. -/
  | groupsNotList
  /-- A group of a group leaf is no identifier. -/
  | groupsNotIds
  /-- A list is asked for under a permission type that does not exist. -/
  | unknownPermissionType (found : Value)
  /-- An entry carries a rule although its type accepts none. -/
  | ruleNotAccepted (type : PermissionType)
deriving Repr

/-- The words of a defect. -/
def Defect.message : Defect → String
  | .tooDeep limit => s!"rule tree deeper than {limit} levels"
  | .notObject found => "rule node must be an object, got " ++ found.typeName
  | .unrecognised => "unrecognised rule node"
  | .unknownLogic found => "unknown logic " ++ found.quoted
  | .missingRules => "combinator is missing 'rules'"
  | .rulesNotList => "'rules' must be an array"
  | .attributeNotObject => "attribute leaf must be an object"
  | .categoryNotId => "attribute category must be a UUID"
  | .invalidField found => "invalid record field " ++ found.quoted
  | .unknownOperator found => "unknown operator " ++ found.quoted
  | .groupsNotList => "'groups' must be an array"
  | .groupsNotIds => "group ids must be UUIDs"
  | .unknownPermissionType found => "unknown permission type " ++ found.quoted
  | .ruleNotAccepted type => type.key ++ " entries cannot carry access rules"

/-- The words `message`, followed by the place they speak about unless that is
unknown or empty. -/
def located (message : String) (place : Option String) : String :=
  match place with
  | some place => if place.isEmpty then message else message ++ " (at " ++ place ++ ")"
  | none => message

/-- A **defect of a stored rule**, with its place when that is known. -/
structure RuleError where
  /-- What is wrong. -/
  defect : Defect
  /-- Where it is wrong. -/
  place : Option Place
deriving Repr

namespace RuleError

/-- How the place of a defect is written. -/
def placeText (error : RuleError) : Option String :=
  error.place.map Place.text

/-- The words of a rule error. -/
def message (error : RuleError) : String :=
  located error.defect.message error.placeText

end RuleError

/-! ### Denials, absences and faults -/

/-- An action that was asked for and **not granted**. -/
structure Denial where
  /-- The name of the action. -/
  action : String
  /-- The name of the kind it was asked on. -/
  subject : String
  /-- The object it was asked on, if one was named. -/
  objectId : Option String
deriving DecidableEq, Repr

/-- The words of a denial. -/
def Denial.message (denial : Denial) : String :=
  let base := s!"Action '{denial.action}' on '{denial.subject}' not granted"
  match denial.objectId with
  | some id => if id.isEmpty then base else base ++ s!" for '{id}'"
  | none => base

/-- An object that was asked for and **does not exist**. -/
structure Absence where
  /-- The name of the kind of the object. -/
  kind : String
  /-- Which object it is. -/
  objectId : Option String
deriving DecidableEq, Repr

/-- The words of an absence. -/
def Absence.message (absence : Absence) : String :=
  let id := absence.objectId.getD "None"
  s!"{absence.kind} '{id}' not found"

/-- A **fault**: stored data whose shape does not admit the operation. -/
inductive Fault
  /-- A value has no such attribute. -/
  | missingAttribute
  /-- A value is of the wrong shape. -/
  | wrongShape
  /-- A table has no such key. -/
  | missingKey
  /-- An attribute cannot be compared with a value. -/
  | incomparable
  /-- An attribute leads to one object where several are needed. -/
  | singular
  /-- A value cannot be turned into one that the column stores. -/
  | unstorable
  /-- A value is of a shape that no column stores. -/
  | unbindable
  /-- An integer is larger than a column stores. -/
  | tooLarge
  /-- A stored document cannot be searched in the way that is asked for. -/
  | unsearchable
  /-- A column that needs a value gets none. -/
  | unfilled
deriving DecidableEq, Repr

/-- The three vocabularies whose words are read from outside. -/
inductive Vocabulary
  | action | kind | permissionType
deriving DecidableEq, Repr

/-- What a vocabulary is called in a message. -/
def Vocabulary.name : Vocabulary → String
  | .action => "Action"
  | .kind => "SubjectKind"
  | .permissionType => "PermissionType"

/-! ### Errors of the library -/

/-- An **error** of a decision: why it has no answer. -/
inductive AccessError
  /-- A stored rule has a defect. -/
  | rule (error : RuleError)
  /-- The action asked for is not granted. -/
  | denied (denial : Denial)
  /-- The object asked for does not exist. -/
  | absent (absence : Absence)
  /-- A word does not belong to its vocabulary. -/
  | unknownWord (found : Value) (vocabulary : Vocabulary)
  /-- A thing is nothing that rules speak about. -/
  | notSubject (what : String)
  /-- A thing contains nothing that could be displayed. -/
  | notContainer (what : String)
  /-- Fields are not protected against the action. -/
  | noFieldAccess (action : Action)
  /-- Stored data is of the wrong shape. -/
  | fault (fault : Fault)
deriving Repr

namespace AccessError

/-- The words of an error. A fault has none. -/
def message : AccessError → String
  | .rule error => error.message
  | .denied denial => denial.message
  | .absent absence => absence.message
  | .unknownWord found vocabulary => found.quoted ++ " is not a valid " ++ vocabulary.name
  | .notSubject what => what ++ " is not an access subject"
  | .notContainer what => what ++ " is not a container"
  | .noFieldAccess action =>
    "field access is defined for read, update, not " ++ Text.quoted action.name
  | .fault _ => ""

/-- The error of an action on a kind that is not granted. -/
def notGranted (action : Action) (kind : Kind) (id : Option Uuid) : AccessError :=
  .denied ⟨action.name, kind.name, id.map Uuid.text⟩

/-- The error of a stored object that does not exist. -/
def notFound (kind : Kind) (id : Uuid) : AccessError :=
  .absent ⟨kind.name, some id.text⟩

end AccessError

/-! ### Reading words -/

/-- The action that a value names. -/
def Action.read? (value : Value) : Except AccessError Action :=
  match value with
  | .text name =>
    match Action.ofName? name with
    | some action => .ok action
    | none => .error (.unknownWord value .action)
  | _ => .error (.unknownWord value .action)

/-- The kind that a value names: a text that is no name is an unknown word, and
anything but a text is no subject. -/
def Kind.read? (value : Value) : Except AccessError Kind :=
  match value with
  | .text name =>
    match Kind.ofName? name with
    | some kind => .ok kind
    | none => .error (.unknownWord value .kind)
  | other => .error (.notSubject other.typeName)

end Clearance
