import Clearance.Text.Matching

/-!
# Operators

Six operators compare the text of a record field with the values of a user. Two
are *negated*: they hold when none of the values passes the test that another
operator asks of one. Equality is exact; the other tests disregard the case of
ASCII letters.
-/

namespace Clearance

/-- How an attribute leaf **compares** a field with the user's values. -/
inductive Operator
  | equal | notEqual | contains | doesNotContain | startsWith | endsWith
deriving DecidableEq, Repr, Inhabited

namespace Operator

/-- Every operator. -/
def all : List Operator := [.equal, .notEqual, .contains, .doesNotContain, .startsWith, .endsWith]

/-- The name of an operator. -/
def name : Operator → String
  | .equal => "eq"
  | .notEqual => "neq"
  | .contains => "contains"
  | .doesNotContain => "doesnotcontain"
  | .startsWith => "startswith"
  | .endsWith => "endswith"

/-- The operator called `name`, which may be written with capitals. -/
def ofName? (name : String) : Option Operator :=
  all.find? fun operator => operator.name == name.toLower

/-- Whether an operator holds when no value passes. -/
def negated : Operator → Bool
  | .notEqual | .doesNotContain => true
  | .equal | .contains | .startsWith | .endsWith => false

/-- Whether a text passes the test that an operator asks of one value. -/
def passes (operator : Operator) (text value : String) : Bool :=
  match operator with
  | .equal | .notEqual => text == value
  | .contains | .doesNotContain => Text.occursIn (Text.folded value) (Text.folded text)
  | .startsWith => (Text.folded value).isPrefixOf (Text.folded text)
  | .endsWith => (Text.folded value).isSuffixOf (Text.folded text)

/-- Whether an operator **accepts** a text, given the user's values: some value
passes, or, if it is negated, none does. -/
def accepts (operator : Operator) (text : String) (values : List String) : Bool :=
  if operator.negated then !values.any (operator.passes text) else values.any (operator.passes text)

end Operator

end Clearance
