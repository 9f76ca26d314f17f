import Clearance.Document.Value
import Clearance.Identifier.Reading

/-!
# Looking into documents

Descriptions and answers are documents of a known form. These functions look into
one and take a part of another form for a missing one, so a description needs to
give only what matters.
-/

namespace Clearance.Value

/-- The member of an object called `key`, if there is one. -/
def get? (value : Value) (key : String) : Option Value :=
  match value with
  | .object members => Members.get? members key
  | _ => none

/-- The member of an object called `key`, nothing if there is none. -/
def get (value : Value) (key : String) : Value :=
  (value.get? key).getD .null

/-- The members of an object. -/
def asMembers : Value → List (String × Value)
  | .object members => members
  | _ => []

/-- The items of a list. -/
def asItems : Value → List Value
  | .list items => items
  | _ => []

/-- The text that a document is. -/
def asText? : Value → Option String
  | .text chars => some chars
  | _ => none

/-- The text that a document is, the empty one for another document. -/
def asText (value : Value) : String :=
  value.asText?.getD ""

/-- The truth value that a document is. -/
def asFlag? : Value → Option Bool
  | .flag truth => some truth
  | _ => none

/-- Whether a document is the true value. -/
def isTrue (value : Value) : Bool :=
  value.asFlag?.getD false

/-- The integer that a document is. -/
def asInteger? : Value → Option Int
  | .integer number => some number
  | _ => none

/-- The identifier that a document spells. -/
def asId? (value : Value) : Option Uuid :=
  value.asText?.bind Uuid.read?

/-- Why some documents do not all stand for identifiers: a text among them spells none. -/
def idFault? (values : List Value) : Option Uuid.ReadError :=
  values.findSome? fun value =>
    match value.asText?.map Uuid.read with
    | some (.error error) => some error
    | _ => none

/-- The texts among the items of a list. -/
def asTexts (value : Value) : List String :=
  value.asItems.filterMap asText?

/-- The identifiers among the items of a list. -/
def asIds (value : Value) : List Uuid :=
  value.asItems.filterMap asId?

/-- The items that a document consists of: the items of a list, the characters of
a text, the names of the members of an object. -/
def items? : Value → Option (List Value)
  | .list items => some items
  | .text chars => some (chars.toList.map fun c => .text (String.singleton c))
  | .object members => some (members.map fun member => .text member.1)
  | _ => none

/-- A document unless it is nothing. -/
def given? : Value → Option Value
  | .null => none
  | value => some value

/-! ### Making documents -/

/-- The document of a text that may be missing. -/
def ofText? (text : Option String) : Value :=
  (text.map Value.text).getD .null

/-- The document of an identifier. -/
def ofId (id : Uuid) : Value :=
  .text id.text

/-- The document of an identifier that may be missing. -/
def ofId? (id : Option Uuid) : Value :=
  ofText? (id.map Uuid.text)

/-- The document of a list of texts. -/
def ofTexts (texts : List String) : Value :=
  .list (texts.map Value.text)

/-- The document of a set of identifiers, in ascending order. -/
def ofIds (ids : List Uuid) : Value :=
  .list ((Uuid.setOf ids).map ofId)

end Clearance.Value
