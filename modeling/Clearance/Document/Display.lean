import Clearance.Document.Value
import Clearance.Number.Shortest
import Clearance.Text.Quoted

/-!
# Documents in messages

A document is shown in two ways. The **quoted** form tells values apart: texts
stand between quotes, lists between brackets, objects between braces. The
**plain** form is the same except for a text, which is shown as it is.
-/

namespace Clearance

namespace Value

/-- A sequence of shown parts between two brackets, separated by commas. -/
def bracketed (opening closing : String) (parts : List String) : String :=
  opening ++ ", ".intercalate parts ++ closing

mutual

/-- The **quoted** form of a document. -/
def quoted : Value → String
  | .null => "None"
  | .flag value => if value then "True" else "False"
  | .integer value => toString value
  | .real value => value.text
  | .text value => Text.quoted value
  | .list items => bracketed "[" "]" (quotedItems items)
  | .object members => bracketed "\x7b" "\x7d" (quotedMembers members)

/-- The quoted forms of the items of a list. -/
def quotedItems : List Value → List String
  | [] => []
  | item :: rest => quoted item :: quotedItems rest

/-- The quoted forms of the members of an object, each behind its name. -/
def quotedMembers : List (String × Value) → List String
  | [] => []
  | (name, value) :: rest => (Text.quoted name ++ ": " ++ quoted value) :: quotedMembers rest

end

/-- The **plain** form of a document: a text as it is, all else quoted. -/
def plain : Value → String
  | .text value => value
  | value => quoted value

end Value

end Clearance
