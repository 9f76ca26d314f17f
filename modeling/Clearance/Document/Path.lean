import Clearance.Document.Reading
import Clearance.Document.Writing
import Clearance.Text.Matching

/-!
# Paths into stored documents

A store looks into a written document with a **path**: steps to a member, whose label
stands between quotes or ends before the next step, and steps to an item, counted
from the beginning or from the end. Labels are compared with the names of members *as
they are written*, escapes included, so that a name with an escape is not found by
itself but by its written form.

A field is looked up by the path that puts it between quotes. A quote in the field
ends the label early, and what follows it is more path. Where the walk reaches a part
of the path that is no step, the store reports a fault; a walk that ends earlier finds
nothing.
-/

namespace Clearance

/-- A **path** into a document. -/
inductive Path
  /-- Nothing follows. -/
  | finish
  /-- What follows is no step. -/
  | broken
  /-- To the member with a label. -/
  | member (label : List Char) (rest : Path)
  /-- To a member, but the label is missing or has no end. -/
  | noLabel
  /-- To the item with a number. -/
  | item (index : Nat) (rest : Path)
  /-- To the item that many places before the end. -/
  | itemBeforeEnd (distance : Nat) (rest : Path)
  /-- To an item counted from the end, but the step has no end. -/
  | noItem
deriving DecidableEq, Repr

namespace Path

/-! ### Reading a path -/

/-- Whether a character begins a step. -/
def beginsStep (c : Char) : Bool :=
  c == '.' || c == '['

/-- The rest of a step to an item after its number. -/
def closed? : List Char → Option (List Char)
  | ']' :: rest => some rest
  | _ => none

/-- The number of an item, of which 32 bits count. -/
def itemNumber (digits : List Char) : Nat :=
  Text.digitsValue digits % 2 ^ 32

/-- A step to an item after its bracket: the step, given what follows it, and what
follows it. -/
def readItem (input : List Char) : (Path → Path) × List Char :=
  let digits := Document.readDigits input
  match digits.1, closed? digits.2 with
  | _ :: _, some rest => (item (itemNumber digits.1), rest)
  | [], _ =>
    match input with
    | '#' :: '-' :: distance =>
      let digits := Document.readDigits distance
      match digits.1, closed? digits.2 with
      | _ :: _, some rest => (itemBeforeEnd (itemNumber digits.1), rest)
      | _, _ => (fun _ => noItem, [])
    | '#' :: rest =>
      match closed? rest with
      | some rest => (itemBeforeEnd 0, rest)
      | none => (fun _ => noItem, [])
    | _ => (fun _ => broken, [])
  | _, _ => (fun _ => broken, [])

/-- A step to a member after its point: the step, given what follows it, and what
follows it. Only a label between quotes may be empty. -/
def readMember (input : List Char) : (Path → Path) × List Char :=
  match input with
  | '"' :: quoted =>
    let label := quoted.takeWhile (· != '"')
    match quoted.dropWhile (· != '"') with
    | _ :: rest => (member label, rest)
    | [] => (fun _ => noLabel, [])
  | input =>
    let label := input.takeWhile (!beginsStep ·)
    if label.isEmpty then (fun _ => noLabel, [])
    else (member label, input.dropWhile (!beginsStep ·))

/-- The path in the input, of at most `steps` steps. -/
def read (steps : Nat) (input : List Char) : Path :=
  match steps, input with
  | _, [] => finish
  | steps + 1, '.' :: rest =>
    let step := readMember rest
    step.1 (read steps step.2)
  | steps + 1, '[' :: rest =>
    let step := readItem rest
    step.1 (read steps step.2)
  | _, _ => broken

/-- The **path to a field**: its characters up to the first NUL between quotes. -/
def ofField (field : String) : Path :=
  let input := '.' :: '"' :: Text.untilNul (field.toList ++ ['"'])
  read input.length input

/-! ### Walking -/

/-- The name of a member as it is written, without its quotes. -/
def writtenLabel (name : String) : List Char :=
  name.toList.flatMap Document.writtenChar

/-- The member of an object with a label. -/
def labelled? (label : List Char) (members : Members) : Option Value :=
  (members.find? fun entry => writtenLabel entry.1 == label).map (·.2)

/-- Whether a walk from a document along a path meets what is no step. -/
def isBlocked : Path → Value → Bool
  | finish, _ => false
  | broken, _ => true
  | noLabel, .object _ => true
  | noItem, .list _ => true
  | member label rest, .object members =>
    match labelled? label members with
    | some value => rest.isBlocked value
    | none => false
  | item index rest, .list items =>
    match items[index]? with
    | some value => rest.isBlocked value
    | none => false
  | itemBeforeEnd distance rest, .list items =>
    if items.length < distance then false
    else
      match items[items.length - distance]? with
      | some value => rest.isBlocked value
      | none => false
  | _, _ => false

/-- The document at the end of a **walk** from a document along a path. -/
def walk? : Path → Value → Option Value
  | finish, value => some value
  | member label rest, .object members => (labelled? label members).bind rest.walk?
  | item index rest, .list items => items[index]?.bind rest.walk?
  | itemBeforeEnd distance rest, .list items =>
    if items.length < distance then none
    else items[items.length - distance]?.bind rest.walk?
  | _, _ => none

end Path

/-! ### Documents that can be searched -/

namespace Value

mutual

/-- Whether a document holds an infinite number, which has no written form that a store
could read. -/
def hasInfinity : Value → Bool
  | .real (.infinite _) => true
  | .list items => hasInfinityItems items
  | .object members => hasInfinityMembers members
  | _ => false

/-- Whether an item of a list holds an infinite number. -/
def hasInfinityItems : List Value → Bool
  | [] => false
  | item :: rest => hasInfinity item || hasInfinityItems rest

/-- Whether a member of an object holds an infinite number. -/
def hasInfinityMembers : List (String × Value) → Bool
  | [] => false
  | (_, value) :: rest => hasInfinity value || hasInfinityMembers rest

end

end Value

end Clearance
