import Clearance.Document.Value
import Clearance.Settings.Problem
import Clearance.Text.Numeral

/-!
# Whole numbers in settings

A **whole number** is given as a number or as a text. A text that is no plain
numeral is made simpler before it is read again: white space around it, a plus sign,
zeros in front, single underscores between digits and a fraction of zeros are taken
away. A minus sign stands before the zeros or, when there is none, may follow them. The
zeros may have any underscores among them. No number may have more than 4300 digits.
-/

namespace Clearance.Settings

/-! ### Plain numerals -/

/-- The number that a **plain numeral** stands for: an optional minus sign, and
digits of which the first is no zero unless it is the only one. -/
def plainNumeral (cs : List Char) : Except Problem Int :=
  let negative := cs.head? == some '-'
  let body := if negative then cs.drop 1 else cs
  let digits := body.takeWhile Char.isDigit
  let rest := body.dropWhile Char.isDigit
  match digits with
  | [] => .error .intParsing
  | first :: more =>
    if first = '0' ∧ more ≠ [] then .error .intParsing
    else if Text.maxDigits < digits.length then .error .intParsingSize
    else if rest ≠ [] then .error .intParsing
    else
      let value : Int := Text.digitsValue digits
      .ok (if negative then -value else value)

/-! ### Lenient numerals -/

/-- What is left of a numeral after the zeros and underscores in front of it, `last`
being the character before. The last of them is kept when nothing but a fraction
follows. -/
def dropZeros (last : Char) : List Char → Option (List Char)
  | [] => some [last]
  | c :: rest =>
    if c = '0' ∨ c = '_' then dropZeros c rest
    else if c.isDigit || c == '-' then some (c :: rest)
    else if c = '.' then some (last :: c :: rest)
    else none

/-- A numeral without the zeros in front. It begins with a digit. -/
def withoutZeros : List Char → Option (List Char)
  | [] => none
  | c :: rest =>
    if c = '0' then dropZeros c rest
    else if c.isDigit then some (c :: rest)
    else none

/-- A numeral without a fraction of zeros. -/
def withoutFraction (cs : List Char) : List Char :=
  match cs.dropWhile (· != '.') with
  | _ :: '0' :: fraction =>
    if fraction.all (· == '0') then cs.takeWhile (· != '.') else cs
  | _ => cs

/-- Whether no two underscores stand side by side. -/
def singleUnderscores : List Char → Bool
  | '_' :: '_' :: _ => false
  | _ :: rest => singleUnderscores rest
  | [] => true

/-- A numeral without its underscores, if each stands between two characters. -/
def withoutUnderscores (cs : List Char) : List Char :=
  if cs.head? == some '_' || cs.getLast? == some '_' || !singleUnderscores cs then cs
  else cs.filter (· != '_')

/-- A numeral without its plus sign. -/
def withoutPlus : List Char → List Char
  | '+' :: '-' :: rest => '+' :: '-' :: rest
  | '+' :: rest => rest
  | cs => cs

/-- What is left of a numeral without a sign when it is made simpler, if that can be
done. -/
def simplifiedDigits (cs : List Char) : Option (List Char) :=
  (withoutZeros cs).map fun cs => withoutUnderscores (withoutFraction cs)

/-- What is left of a numeral when it is made simpler, if that can be done. -/
def simplified (cs : List Char) : Option (List Char) :=
  match withoutPlus (Text.trim Text.isWhite cs) with
  | '-' :: rest => (simplifiedDigits rest).map ('-' :: ·)
  | cs => simplifiedDigits cs

/-- The whole number that a text spells. -/
def wholeOfText (text : String) : Except Problem Int :=
  match plainNumeral text.toList with
  | .error .intParsing =>
    match (simplified text.toList).map plainNumeral with
    | some (.ok whole) => .ok whole
    | _ => .error .intParsing
  | answer => answer

/-- The whole number that a floating-point number is. Beyond 64 bits there are
none. -/
def wholeOfReal (number : Binary64) : Except Problem Int :=
  match number with
  | .infinite _ => .error .finiteNumber
  | number =>
    match number.toInt? with
    | none => .error .intFromFloat
    | some whole => if whole.natAbs < 2 ^ 63 then .ok whole else .error .intParsingSize

/-- The **whole number** that a value is. -/
def wholeNumber : Value → Except Problem Int
  | .integer number => .ok number
  | .flag truth => .ok (if truth then 1 else 0)
  | .real number => wholeOfReal number
  | .text text => wholeOfText text
  | .null | .list _ | .object _ => .error .intType

/-! ### Yes and no -/

/-- The words for yes. -/
def yesWords : List String := ["1", "t", "y", "on", "yes", "true"]

/-- The words for no. -/
def noWords : List String := ["0", "f", "n", "no", "off", "false"]

/-- What a word says, in whatever case it is written. -/
def truthOfText (text : String) : Except Problem Bool :=
  let word := text.toLower
  if yesWords.contains word then .ok true
  else if noWords.contains word then .ok false
  else .error .boolParsing

/-- What a whole number says. -/
def truthOfWhole (number : Int) : Except Problem Bool :=
  if number = 1 then .ok true else if number = 0 then .ok false else .error .boolParsing

/-- The **truth value** that a value says. -/
def truthValue : Value → Except Problem Bool
  | .flag truth => .ok truth
  | .text text => truthOfText text
  | .integer number =>
    if -2 ^ 63 ≤ number ∧ number < 2 ^ 63 then truthOfWhole number else .error .boolType
  | .real number =>
    match wholeOfReal number with
    | .ok whole => truthOfWhole whole
    | .error _ => .error .boolType
  | .null | .list _ | .object _ => .error .boolType

end Clearance.Settings
