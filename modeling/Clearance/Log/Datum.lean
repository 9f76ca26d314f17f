import Clearance.Document.Access
import Clearance.Document.Display
import Clearance.Text.Sorted
import Clearance.Vocabulary.Action

/-!
# Logged values

The fields of a log line hold more than documents: identifiers, actions, and three
kinds of collections. Like a document, such a **datum** is shown *quoted*, so that
values can be told apart, or *plain*.

As a field of an event an identifier or an action is made *simple*: it becomes its
own text. Inside a collection it stays what it is.
-/

namespace Clearance.Log

/-- A **datum**: a value that a log line can show. -/
inductive Datum
  | null
  | flag (value : Bool)
  | integer (value : Int)
  | real (value : Binary64)
  | text (value : String)
  | id (value : Uuid)
  | action (value : Action)
  | list (items : List Datum)
  | tuple (items : List Datum)
  | set (items : List Datum)
  | object (members : List (String × Datum))
deriving Inhabited

namespace Datum

/-! ### Shown forms -/

/-- The items of a tuple between brackets; a single one is followed by a comma. -/
def tupleText (parts : List String) : String :=
  match parts with
  | [part] => "(" ++ part ++ ",)"
  | parts => Value.bracketed "(" ")" parts

/-- The items of a set between braces; the empty set has a name. -/
def setText (parts : List String) : String :=
  if parts.isEmpty then "set()" else Value.bracketed "\x7b" "\x7d" parts

/-- The name of an action behind the vocabulary it belongs to. -/
def actionText (action : Action) : String :=
  "Action." ++ action.name.toUpper

mutual

/-- The **quoted** form of a datum. -/
def quoted : Datum → String
  | null => "None"
  | flag value => if value then "True" else "False"
  | integer value => toString value
  | real value => value.text
  | text value => Text.quoted value
  | id value => "UUID(" ++ Text.quoted value.text ++ ")"
  | action value => "<" ++ actionText value ++ ": " ++ Text.quoted value.name ++ ">"
  | list items => Value.bracketed "[" "]" (quotedItems items)
  | tuple items => tupleText (quotedItems items)
  | set items => setText (quotedItems items)
  | object members => Value.bracketed "\x7b" "\x7d" (quotedMembers members)

/-- The quoted forms of some items. -/
def quotedItems : List Datum → List String
  | [] => []
  | item :: rest => quoted item :: quotedItems rest

/-- The quoted forms of the members of an object, each behind its name. -/
def quotedMembers : List (String × Datum) → List String
  | [] => []
  | (name, value) :: rest => (Text.quoted name ++ ": " ++ quoted value) :: quotedMembers rest

end

/-- The **plain** form of a datum. -/
def plain : Datum → String
  | text value => value
  | id value => value.text
  | action value => actionText value
  | datum => quoted datum

/-! ### Fields of events -/

/-- A datum as a field: an identifier or an action becomes its own text. -/
def simple : Datum → Datum
  | id value => text value.text
  | action value => text value.name
  | datum => datum

/-- Whether a datum counts as missing: nothing, a zero, or something empty. -/
def isEmpty : Datum → Bool
  | null => true
  | flag value => !value
  | integer value => value == 0
  | real value => value.isZero
  | text value => value.isEmpty
  | id _ | action _ => false
  | list items | tuple items | set items => items.isEmpty
  | object members => members.isEmpty

/-- A whole number as the nearest floating-point number, if there is one. -/
def widenedWhole? (value : Int) : Option Datum :=
  match Binary64.ofRatio (decide (value < 0)) value.natAbs 1 with
  | .infinite _ => none
  | value => some (real value)

/-- Whether a datum is nothing. -/
def isNull : Datum → Bool
  | null => true
  | _ => false

/-- The items of a collection in ascending order of their shown forms. -/
def shownItems (items : List Datum) : String :=
  let shown := ",".intercalate (Text.sorted (items.map fun item => item.simple.plain))
  if shown.isEmpty then "[]" else shown

/-- How a field is shown: the order of a collection does not matter. -/
def shown : Datum → String
  | null => "null"
  | list items | tuple items | set items => shownItems items
  | datum => datum.simple.plain

/-! ### Sets -/

mutual

/-- Whether two data are one element of a set; an action is the same as its name. -/
def same : Datum → Datum → Bool
  | id a, id b => a == b
  | action a, action b => a == b
  | action a, text b | text b, action a => a.name == b
  | text a, text b => a == b
  | null, null => true
  | flag a, flag b => a == b
  | flag a, integer b | integer b, flag a => (if a then 1 else 0) == b
  | integer a, integer b => a == b
  | flag a, real b | real b, flag a => b.toInt? == some (if a then 1 else 0)
  | integer a, real b | real b, integer a => b.toInt? == some a
  | real a, real b => a.same b
  | tuple a, tuple b => sameItems a b
  | _, _ => false

/-- Whether two runs of data are the same, item by item. -/
def sameItems : List Datum → List Datum → Bool
  | [], [] => true
  | a :: as, b :: bs => same a b && sameItems as bs
  | _, _ => false

end

/-- A datum put into a list in ascending order of plain forms, unless it is there. -/
def insertOnce (datum : Datum) (items : List Datum) : List Datum :=
  if items.any datum.same then items
  else
    items.takeWhile (fun item => item.simple.plain < datum.simple.plain) ++
      datum :: items.dropWhile (fun item => item.simple.plain < datum.simple.plain)

/-- The **set** of some data: ascending by plain form, each once. -/
def setOf (items : List Datum) : Datum :=
  set (items.foldl (fun items item => insertOnce item items) [])

/-! ### Documents -/

mutual

/-- The datum of a plain document. -/
def ofValue : Value → Datum
  | .null => null
  | .flag value => flag value
  | .integer value => integer value
  | .real value => real value
  | .text value => text value
  | .list items => list (ofItems items)
  | .object members => object (ofMembers members)

/-- The data of some plain documents. -/
def ofItems : List Value → List Datum
  | [] => []
  | item :: rest => ofValue item :: ofItems rest

/-- The members of an object of plain documents. -/
def ofMembers : List (String × Value) → List (String × Datum)
  | [] => []
  | (name, value) :: rest => (name, ofValue value) :: ofMembers rest

end

/-! ### Marked documents -/

/-- Why a document stands for no datum. -/
inductive ReadError
  /-- What is marked as an identifier spells none. -/
  | id (error : Uuid.ReadError)
  /-- What is marked as an action names none. -/
  | action (found : Value)
  /-- What is marked is of the wrong shape, or is a set of data that cannot be in one. -/
  | shape
  /-- What is marked as an identifier is no text. -/
  | noText

/-- The identifier that a marked document spells. -/
def readId : Value → Except ReadError Datum
  | .text key => ((Uuid.read key).map id).mapError .id
  | .null => .error .shape
  | _ => .error .noText

/-- The action that a marked document names. -/
def readAction (value : Value) : Except ReadError Datum :=
  match value.asText?.bind Action.ofName? with
  | some name => .ok (action name)
  | none => .error (.action value)

mutual

/-- Whether a datum can be in a set. -/
def isElement : Datum → Bool
  | list _ | set _ | object _ => false
  | tuple items => areElements items
  | _ => true

/-- Whether some data can be in a set. -/
def areElements : List Datum → Bool
  | [] => true
  | item :: rest => isElement item && areElements rest

end

/-- The data that a plain document consists of. -/
def plainItems (value : Value) : Except ReadError (List Datum) :=
  match value.items? with
  | some items => .ok (ofItems items)
  | none => .error .shape

/-- The set of some data, if they can be in one. -/
def readSet (items : List Datum) : Except ReadError Datum :=
  if areElements items then .ok (setOf items) else .error .shape

mutual

/-- The datum that a document stands for. An object with a single marked member stands for
an identifier, an action, a set or a tuple; lists, sets and tuples may hold such objects,
other objects may not. -/
def read : Value → Except ReadError Datum
  | .list items => (readItems items).map list
  | .object members => readObject members
  | value => .ok (ofValue value)

/-- The data that some documents stand for. -/
def readItems : List Value → Except ReadError (List Datum)
  | [] => .ok []
  | item :: rest => do
    let datum ← read item
    let data ← readItems rest
    return datum :: data

/-- The datum that an object stands for. -/
def readObject : List (String × Value) → Except ReadError Datum
  | [("$uuid", value)] => readId value
  | [("$action", value)] => readAction value
  | [("$set", .list items)] => (readItems items).bind readSet
  | [("$tuple", .list items)] => (readItems items).map tuple
  | [("$set", value)] => (plainItems value).bind readSet
  | [("$tuple", value)] => (plainItems value).map tuple
  | members => .ok (object (ofMembers members))

end

mutual

/-- The document that shows a datum. -/
def toValue : Datum → Value
  | null => .null
  | flag value => .flag value
  | integer value => .integer value
  | real value => .real value
  | text value => .text value
  | id value => .text value.text
  | action value => .text value.name
  | list items | tuple items => .list (toValues items)
  | set items => .list (toValues items)
  | object members => .object (toMembers members)

/-- The documents that show some data. -/
def toValues : List Datum → List Value
  | [] => []
  | item :: rest => toValue item :: toValues rest

/-- The members that show the members of an object. -/
def toMembers : List (String × Datum) → List (String × Value)
  | [] => []
  | (name, value) :: rest => (name, toValue value) :: toMembers rest

end

end Datum

end Clearance.Log
