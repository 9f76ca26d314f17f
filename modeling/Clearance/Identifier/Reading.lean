import Clearance.Identifier.Basic
import Clearance.Text.Numeral

/-!
# Reading identifiers

An identifier is read leniently. Every `urn:` and then every `uuid:` is taken
out of the text, braces are stripped from both ends, and the hyphens are
dropped wherever they stand. Thirty-two characters must be left, and they must
spell a **hexadecimal literal**: white space around it, a plus sign, a `0x`, an
underscore between two digits and the decimal digits of any script are allowed,
so the digits proper may be fewer than thirty-two and the number is below
`2 ^ 128` in any case.
-/

namespace Clearance

/-! ### Hexadecimal literals -/

namespace Text

/-- The characters of a literal after its sign. -/
def unsigned : List Char → List Char
  | '+' :: rest => rest
  | cs => cs

/-- The digits of a hexadecimal literal after the mark of its base and one
underscore behind it. -/
def afterBaseMark : List Char → List Char
  | '0' :: 'x' :: '_' :: rest => rest
  | '0' :: 'X' :: '_' :: rest => rest
  | '0' :: 'x' :: rest => rest
  | '0' :: 'X' :: rest => rest
  | cs => cs

/-- The number that a **hexadecimal literal** spells. -/
def hexLiteral? (cs : List Char) : Option Nat := do
  let plain ← cs.mapM literalChar
  readDigitRun 16 0 false (afterBaseMark (unsigned (trim isWhite plain)))

/-- `cs` with every occurrence of `word` taken out, from the left; `skip`
characters of an occurrence are still to be passed over. -/
def without (word : List Char) (skip : Nat) : List Char → List Char
  | [] => []
  | c :: rest =>
    match skip with
    | skip + 1 => without word skip rest
    | 0 =>
      if word.isPrefixOf (c :: rest) then without word (word.length - 1) rest
      else c :: without word 0 rest

end Text

namespace Uuid

/-! ### The lenient reader -/

/-- Why a text is no identifier. -/
inductive ReadError
  /-- Not thirty-two characters are left. -/
  | badlyFormed
  /-- The thirty-two characters spell no number. -/
  | invalidLiteral (left : String)
  /-- A value of another type is no text. -/
  | notText (typeName : String)
deriving DecidableEq, Repr

/-- The words of the failure. The characters are shown quoted, cut off after two
hundred. -/
def ReadError.message : ReadError → String
  | .badlyFormed => "badly formed hexadecimal UUID string"
  | .invalidLiteral left =>
    "invalid literal for int() with base 16: " ++
      String.ofList ((Text.quoted left).toList.take 200)
  | .notText typeName => "expected a UUID string, got " ++ typeName

/-- What is left of a text without its decoration. -/
def bare (cs : List Char) : List Char :=
  let isBrace (c : Char) : Bool := c == '\x7b' || c == '\x7d'
  let plain := Text.without "uuid:".toList 0 (Text.without "urn:".toList 0 cs)
  (Text.trim isBrace plain).filter (· != '-')

/-- The **identifier** that a text spells. -/
def read (text : String) : Except ReadError Uuid :=
  let left := bare text.toList
  if left.length = 32 then
    match (Text.hexLiteral? left).bind ofNat? with
    | some id => .ok id
    | none => .error (.invalidLiteral (String.ofList left))
  else .error .badlyFormed

/-- The identifier that a text spells, if it spells one. -/
def read? (text : String) : Option Uuid :=
  (read text).toOption

end Uuid

end Clearance
