import Clearance.Identifier.Basic
import Clearance.Rule.Operator

/-!
# Rule trees

The rule of an entry in a role list says which records the entry is meant for.
It is a **tree**: combinators join rules by *and* or *or*, an attribute leaf
compares a field of the record with the user's values in a category, and a group
leaf asks for a group that the record and the user share. A group leaf may name
groups, and then only those count.
-/

namespace Clearance

/-- How a combinator joins its parts. -/
inductive Logic
  | and | or
deriving DecidableEq, Repr

namespace Logic

/-- The name of a way of joining. -/
def name : Logic → String
  | .and => "and"
  | .or => "or"

/-- The way of joining called `name`, which may be written with capitals. -/
def ofName? (name : String) : Option Logic :=
  [Logic.and, Logic.or].find? fun logic => logic.name == name.toLower

end Logic

/-- A **rule tree**. -/
inductive RuleTree
  /-- Rules joined by *and* or *or*. -/
  | combine (logic : Logic) (parts : List RuleTree)
  /-- A field of the record compared with the user's values in a category. -/
  | compare (category : Uuid) (field : String) (operator : Operator)
  /-- A group shared with the user, one of those named if any are. -/
  | share (groupIds : List Uuid)
deriving Inhabited

namespace RuleTree

mutual

/-- The number of levels of a tree; a leaf has one. -/
def depth : RuleTree → Nat
  | combine _ parts => depthAll parts + 1
  | compare .. => 1
  | share _ => 1

/-- The number of levels of the deepest tree of a list. -/
def depthAll : List RuleTree → Nat
  | [] => 0
  | part :: rest => max (depth part) (depthAll rest)

end

mutual

/-- Whether two trees are equal. -/
def same : RuleTree → RuleTree → Bool
  | combine logic parts, combine logic' parts' => logic == logic' && sameAll parts parts'
  | compare category field operator, compare category' field' operator' =>
    category == category' && field == field' && operator == operator'
  | share ids, share ids' => ids == ids'
  | _, _ => false

/-- Whether two lists of trees are equal. -/
def sameAll : List RuleTree → List RuleTree → Bool
  | [], [] => true
  | part :: rest, part' :: rest' => same part part' && sameAll rest rest'
  | _, _ => false

end

end RuleTree

end Clearance
