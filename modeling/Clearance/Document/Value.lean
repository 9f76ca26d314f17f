import Clearance.Number.Binary64

/-!
# Documents

A **document** is the tree of values in which rules, field definitions and the
data of records are stored: nothing, truth values, integers of any size, binary
floating-point numbers, texts, lists, and objects whose members keep the order in
which they were first written.

Two documents are the *same* when they show the same content: members are
compared by name, whatever their order, and a number is compared by its value,
so that truth counts as one and one as `1.0`.
-/

namespace Clearance

/-- A **document**. -/
inductive Value
  /-- Nothing. -/
  | null
  /-- A truth value. -/
  | flag (value : Bool)
  /-- An integer of any size. -/
  | integer (value : Int)
  /-- A binary floating-point number. -/
  | real (value : Binary64)
  /-- A text. -/
  | text (value : String)
  /-- A list. -/
  | list (items : List Value)
  /-- An object: named members in the order in which they were written. -/
  | object (members : List (String × Value))
deriving Repr, Inhabited

/-- The members of an object. -/
abbrev Members := List (String × Value)

namespace Members

/-- The member called `name`, if there is one. -/
def get? (members : Members) (name : String) : Option Value :=
  members.lookup name

/-- Whether there is a member called `name`. -/
def has (members : Members) (name : String) : Bool :=
  members.any (·.1 == name)

/-- The members with `name` set to `value`: an existing member keeps its place,
a new one comes last. -/
def put : Members → String → Value → Members
  | [], name, value => [(name, value)]
  | (key, old) :: rest, name, value =>
    if key = name then (key, value) :: rest else (key, old) :: put rest name value

/-- The names of the members, in order. -/
def names (members : Members) : List String :=
  members.map (·.1)

end Members

namespace Value

/-! ### Kinds of values -/

/-- What a value is called in a message. -/
def typeName : Value → String
  | .null => "NoneType"
  | .flag _ => "bool"
  | .integer _ => "int"
  | .real _ => "float"
  | .text _ => "str"
  | .list _ => "list"
  | .object _ => "dict"

/-- Whether a value counts as missing: nothing, a zero, or something empty. -/
def isEmpty : Value → Bool
  | .null => true
  | .flag value => !value
  | .integer value => value == 0
  | .real value => value.isZero
  | .text value => value.isEmpty
  | .list items => items.isEmpty
  | .object members => members.isEmpty

/-- Whether a value can be an element of a set: lists and objects cannot. -/
def isAtom : Value → Bool
  | .list _ | .object _ => false
  | _ => true

/-! ### Sameness -/

/-- Whether two values that are not lists or objects are the same; numbers and
truth values are compared by their value. -/
def sameAtom : Value → Value → Bool
  | .null, .null => true
  | .text a, .text b => a == b
  | .flag a, .flag b => a == b
  | .flag a, .integer b => (if a then 1 else 0) == b
  | .integer a, .flag b => a == (if b then 1 else 0)
  | .integer a, .integer b => a == b
  | .flag a, .real b => b.toInt? == some (if a then 1 else 0)
  | .real a, .flag b => a.toInt? == some (if b then 1 else 0)
  | .integer a, .real b => b.toInt? == some a
  | .real a, .integer b => a.toInt? == some b
  | .real a, .real b => a.same b
  | _, _ => false

mutual

/-- Whether two documents are the **same**. -/
def same : Value → Value → Bool
  | .list xs, .list ys => sameItems xs ys
  | .object ms, .object ns => ms.length == ns.length && sameMembers ms ns
  | x, y => sameAtom x y

/-- Whether two lists are the same, item by item. -/
def sameItems : List Value → List Value → Bool
  | [], [] => true
  | x :: xs, y :: ys => same x y && sameItems xs ys
  | _, _ => false

/-- Whether every member on the left has a member of the same name and content
on the right. -/
def sameMembers : List (String × Value) → List (String × Value) → Bool
  | [], _ => true
  | (name, x) :: rest, ns =>
    (match ns.lookup name with
      | some y => same x y
      | none => false) && sameMembers rest ns

end

end Value

end Clearance
