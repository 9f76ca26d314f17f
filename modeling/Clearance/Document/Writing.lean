import Clearance.Document.Value
import Clearance.Number.Shortest
import Clearance.Text.Quoted

/-!
# Written documents

A document is written in the notation of JSON: texts between double quotes with
every character outside printable ASCII escaped by its UTF-16 units, members and
items separated by a comma and a blank. Two documents with one written form have
the same members in the same order.
-/

namespace Clearance

namespace Document

/-- A UTF-16 unit as an escape. -/
def unitEscape (unit : Nat) : List Char :=
  '\\' :: 'u' :: Text.hexDigits 4 unit

/-- What stands for `c` in a written text. -/
def writtenChar (c : Char) : List Char :=
  if c = '"' then ['\\', '"']
  else if c = '\\' then ['\\', '\\']
  else if c = '\n' then ['\\', 'n']
  else if c = '\r' then ['\\', 'r']
  else if c = '\t' then ['\\', 't']
  else if c = '\x08' then ['\\', 'b']
  else if c = '\x0c' then ['\\', 'f']
  else if 32 ≤ c.toNat ∧ c.toNat < 127 then [c]
  else if c.toNat < 0x10000 then unitEscape c.toNat
  else
    let beyond := c.toNat - 0x10000
    unitEscape (0xD800 + beyond / 0x400) ++ unitEscape (0xDC00 + beyond % 0x400)

/-- A written text. -/
def writtenText (text : String) : String :=
  String.ofList ('"' :: text.toList.flatMap writtenChar ++ ['"'])

/-- Written parts between two brackets. -/
def writtenSequence (opening closing : String) (parts : List String) : String :=
  opening ++ ", ".intercalate parts ++ closing

end Document

namespace Value

open Document

mutual

/-- The **written form** of a document. -/
def written : Value → String
  | .null => "null"
  | .flag value => if value then "true" else "false"
  | .integer value => toString value
  | .real (.infinite negative) => if negative then "-Infinity" else "Infinity"
  | .real value => value.text
  | .text value => writtenText value
  | .list items => writtenSequence "[" "]" (writtenItems items)
  | .object members => writtenSequence "\x7b" "\x7d" (writtenMembers members)

/-- The written forms of the items of a list. -/
def writtenItems : List Value → List String
  | [] => []
  | item :: rest => written item :: writtenItems rest

/-- The written forms of the members of an object. -/
def writtenMembers : List (String × Value) → List String
  | [] => []
  | (name, value) :: rest => (writtenText name ++ ": " ++ written value) :: writtenMembers rest

end

end Value

end Clearance
