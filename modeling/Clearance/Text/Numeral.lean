import Clearance.Text.Blank
import Clearance.Text.Digit

/-!
# Numerals

A number is read from a text leniently: white space around the digits, a sign in
front of them, single underscores between them and the digits of any script are
allowed. `Clearance.Text.decimal` reads a number in base ten, of at most 4300 digits;
`Clearance.Text.readDigitRun` reads the digits of one in any base up to sixteen.
-/

namespace Clearance.Text

/-! ### Digits -/

/-- A character of a literal in ASCII: white space becomes a blank, a decimal
digit of any script its ASCII digit; other characters outside ASCII have no place
in a literal. -/
def literalChar (c : Char) : Option Char :=
  if c.toNat < 127 then some c
  else if isWhite c then some ' '
  else (digit? c).map fun value => Char.ofNat (48 + value)

/-- The value of an ASCII digit in a base of at most sixteen. -/
def digitIn? (base : Nat) (c : Char) : Option Nat :=
  let value :=
    if '0' ≤ c ∧ c ≤ '9' then some (c.toNat - 48)
    else if 'a' ≤ c ∧ c ≤ 'f' then some (c.toNat - 87)
    else if 'A' ≤ c ∧ c ≤ 'F' then some (c.toNat - 55)
    else none
  value.filter (· < base)

/-- The number that ASCII digits stand for in base ten. -/
def digitsValue (digits : List Char) : Nat :=
  digits.foldl (fun value c => 10 * value + (c.toNat - 48)) 0

/-- The number that the digits `cs` stand for after `value`. Single underscores
may separate digits: `mayBreak` says that one may come next. -/
def readDigitRun (base value : Nat) (mayBreak : Bool) : List Char → Option Nat
  | [] => if mayBreak then some value else none
  | '_' :: rest => if mayBreak then readDigitRun base value false rest else none
  | c :: rest =>
    match digitIn? base c with
    | some digit => readDigitRun base (value * base + digit) true rest
    | none => none

/-! ### Numbers in base ten -/

/-- The most digits that a number in base ten may have. -/
def maxDigits : Nat := 4300

/-- Why a text spells no number in base ten. -/
inductive NumeralFailure
  /-- It is no numeral. -/
  | malformed
  /-- It has too many digits. -/
  | oversized (digits : Nat)
deriving DecidableEq, Repr

/-- The words of the failure, for a text that is shown as given. What is shown is cut
off after two hundred characters. -/
def NumeralFailure.message (shown : String) : NumeralFailure → String
  | malformed =>
    "invalid literal for int() with base 10: " ++ String.ofList (shown.toList.take 200)
  | oversized digits =>
    s!"Exceeds the limit ({maxDigits} digits) for integer string conversion: value has {digits}" ++
      " digits; use sys.set_int_max_str_digits() to increase the limit"

/-- The characters of a numeral after its sign. -/
def afterSign : List Char → List Char
  | '-' :: rest => rest
  | '+' :: rest => rest
  | cs => cs

/-- The **number in base ten** that a text spells. The digits are counted before it is
seen whether anything but white space follows them. -/
def decimal (text : String) : Except NumeralFailure Int :=
  let isPart (c : Char) : Bool := c.isDigit || c == '_'
  let cs := (text.toList.map fun c => (literalChar c).getD '?').dropWhile isWhite
  let run := (afterSign cs).takeWhile isPart
  let rest := (afterSign cs).dropWhile isPart
  let digits := (run.filter Char.isDigit).length
  match readDigitRun 10 0 false run with
  | none => .error .malformed
  | some value =>
    if maxDigits < digits then .error (.oversized digits)
    else if rest.all isWhite then .ok (if cs.head? == some '-' then -value else value)
    else .error .malformed

end Clearance.Text
