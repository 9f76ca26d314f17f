import Clearance.Error
import Clearance.Identifier.Reading
import Clearance.Rule.Tree

/-!
# Reading stored rules

A stored rule is an object, and the members it has say what node it is:
`attribute` makes an attribute leaf, else `groups` a group leaf, else `logic`,
`condition` or `rules` a combinator; members that do not belong to the node are
not looked at. A combinator joins by its `logic`, or by its `condition` if it has
no logic.

The reader goes down at most as many levels as it is told and reports the first
defect it meets, a node before its children and the children from the left. What
has been read once can be read again (`Clearance.RuleTree.bounded`), which only
checks its depth.
-/

namespace Clearance

namespace RuleTree

/-! ### Field names -/

/-- Whether a character may begin a field name. -/
def isFieldStart (c : Char) : Bool :=
  c.isAlphanum || c == '_'

/-- Whether a character may stand in a field name. -/
def isFieldChar (c : Char) : Bool :=
  isFieldStart c || c == '-'

/-- The characters of a name without one line feed at its end. -/
def withoutLineFeed (cs : List Char) : List Char :=
  if cs.getLast? = some '\n' then cs.dropLast else cs

/-- Whether a text is a **field name**: up to one hundred and twenty-eight ASCII
letters, digits, underscores and hyphens, the first no hyphen. A line feed at the
end is let through. -/
def isFieldName (name : String) : Bool :=
  match withoutLineFeed name.toList with
  | [] => false
  | c :: rest => isFieldStart c && rest.all isFieldChar && rest.length < 128

/-! ### Leaves -/

/-- The error of a defect at a place. -/
def defectAt (place : Place) (defect : Defect) : Except RuleError α :=
  .error ⟨defect, some place⟩

/-- The identifier that a value spells. -/
def idOf? : Value → Option Uuid
  | .text text => Uuid.read? text
  | _ => none

/-- The member of an object, nothing if it is missing. -/
def member (members : Members) (name : String) : Value :=
  (members.get? name).getD .null

/-- The field that a value names. -/
def fieldOf? : Value → Option String
  | .text name => if isFieldName name then some name else none
  | _ => none

/-- The operator that a value names. -/
def operatorOf? : Value → Option Operator
  | .text name => Operator.ofName? name
  | _ => none

/-- The way of joining that a value names. -/
def logicOf? : Value → Option Logic
  | .text name => Logic.ofName? name
  | _ => none

/-- The attribute leaf stored at a place. -/
def readCompare (place : Place) : Value → Except RuleError RuleTree
  | .object members =>
    match idOf? (member members "category") with
    | none => defectAt (place ++ [.member "category"]) .categoryNotId
    | some category =>
      match fieldOf? (member members "value") with
      | none => defectAt (place ++ [.member "value"]) (.invalidField (member members "value"))
      | some field =>
        match operatorOf? (member members "operator") with
        | none =>
          defectAt (place ++ [.member "operator"]) (.unknownOperator (member members "operator"))
        | some operator => .ok (.compare category field operator)
  | _ => defectAt place .attributeNotObject

/-- The group leaf stored at a place. -/
def readShare (place : Place) : Value → Except RuleError RuleTree
  | .list items =>
    match items.mapM idOf? with
    | some ids => .ok (.share (Uuid.setOf ids))
    | none => defectAt place .groupsNotIds
  | _ => defectAt place .groupsNotList

/-! ### Nodes -/

/-- Every item of a list read with its index, from the left; the first that fails
decides. -/
def readEach (read : Nat → α → Except ε β) (index : Nat) : List α → Except ε (List β)
  | [] => .ok []
  | item :: rest =>
    match read index item with
    | .error error => .error error
    | .ok item =>
      match readEach read (index + 1) rest with
      | .error error => .error error
      | .ok rest => .ok (item :: rest)

/-- The value that says how a combinator joins. -/
def logicMember (members : Members) : Value :=
  (members.get? "logic").getD (member members "condition")

/-- Whether some member of an object makes it a combinator. -/
def isCombinator (members : Members) : Bool :=
  members.has "logic" || members.has "condition" || members.has "rules"

/-- The combinator whose members are given, with its parts read by `read`. -/
def readCombine (read : Nat → Value → Except RuleError RuleTree) (place : Place)
    (members : Members) : Except RuleError RuleTree :=
  match logicOf? (logicMember members) with
  | none => defectAt place (.unknownLogic (logicMember members))
  | some logic =>
    match members.get? "rules" with
    | none => defectAt place .missingRules
    | some (.list items) => (readEach read 0 items).map (.combine logic)
    | some _ => defectAt (place ++ [.member "rules"]) .rulesNotList

/-- The node stored at a place, nested at most `levels` levels; `limit` is the
number of levels that the whole tree may have. -/
def readNode (limit : Int) : (levels : Nat) → Place → Value → Except RuleError RuleTree
  | 0, place, _ => defectAt place (.tooDeep limit)
  | levels + 1, place, .object members =>
    match Members.get? members "attribute", Members.get? members "groups" with
    | some leaf, _ => readCompare (place ++ [.member "attribute"]) leaf
    | none, some leaf => readShare (place ++ [.member "groups"]) leaf
    | none, none =>
      if isCombinator members then
        readCombine (fun index => readNode limit levels (place ++ [.child index])) place members
      else defectAt place .unrecognised
  | _ + 1, place, value => defectAt place (.notObject value)

/-- The **rule tree** that a document stores, with at most `limit` levels. -/
def read (limit : Int) (document : Value) : Except RuleError RuleTree :=
  readNode limit limit.toNat [] document

/-! ### Reading again -/

/-- A tree at a place, if it is nested at most `levels` levels. -/
def boundedNode (limit : Int) : (levels : Nat) → Place → RuleTree → Except RuleError RuleTree
  | 0, place, _ => defectAt place (.tooDeep limit)
  | levels + 1, place, combine logic parts =>
    (readEach (fun index => boundedNode limit levels (place ++ [.child index])) 0 parts).map
      (combine logic)
  | _ + 1, _, leaf => .ok leaf

/-- A tree that has been read, if it has at most `limit` levels. -/
def bounded (limit : Int) (tree : RuleTree) : Except RuleError RuleTree :=
  boundedNode limit limit.toNat [] tree

end RuleTree

end Clearance
