import Clearance.Document.Reading
import Clearance.Document.Writing
import Clearance.Number.Scaling
import Clearance.Truth

/-!
# Stored values

A row stores each of its columns as one of four things: nothing, an integer of 64
bits, a binary floating-point number, or a text. A column has an **affinity** for
texts or for numbers and brings what it is given into that form if it can: a
column of texts stores a number as its text, a column of numbers stores the number
that a text spells, and a number without a fraction as an integer.

Values are compared after the affinity of the column has been applied to both
sides, numbers by their value. Nothing compares as unknown.
-/

namespace Clearance

/-! ### The text of a number -/

namespace Binary64

/-- Digits after a point: without the zeros at their end, but at least one. -/
def fractionDigits (digits : List Char) : List Char :=
  let kept := (digits.reverse.dropWhile (· == '0')).reverse
  '.' :: (if kept.isEmpty then ['0'] else kept)

/-- Fifteen digits with a point after the first `point` of them: positional while
at most fifteen digits stand before the point and at most three zeros after it,
scientific otherwise. -/
def columnLayout (digits : List Char) (point : Int) : List Char :=
  if point < -3 ∨ 15 < point then
    digits.take 1 ++ fractionDigits (digits.drop 1) ++ 'e' :: exponentText (point - 1)
  else if point ≤ 0 then
    '0' :: fractionDigits (List.replicate (-point).toNat '0' ++ digits)
  else digits.take point.toNat ++ fractionDigits (digits.drop point.toNat)

/-- The **text that a column stores** for a number, of fifteen significant digits. Zero has
no sign. -/
def columnText : Binary64 → String
  | .infinite negative => if negative then "-Inf" else "Inf"
  | .finite negative significand exponent =>
    if significand = 0 then "0.0"
    else
      let found := Scaling.fifteen ⟨significand, exponent⟩
      let body := columnLayout found.1 found.2
      String.ofList (if negative then '-' :: body else body)

end Binary64

/-! ### Values -/

/-- A **stored value**. -/
inductive Stored
  /-- Nothing. -/
  | empty
  /-- An integer of 64 bits. -/
  | integer (value : Int)
  /-- A binary floating-point number. -/
  | real (value : Binary64)
  /-- A text. -/
  | text (text : String)
deriving DecidableEq, Repr, Inhabited

namespace Stored

/-- Whether an integer has 64 bits. -/
def fits (value : Int) : Bool :=
  -2 ^ 63 ≤ value && value < 2 ^ 63

/-- A number as a column of numbers stores it: as an integer if it is one that has
64 bits and is neither the least nor the greatest of these. -/
def ofReal (value : Binary64) : Stored :=
  match value.toInt? with
  | some whole => if -2 ^ 63 < whole ∧ whole < 2 ^ 63 - 1 then integer whole else real value
  | none => real value

/-- A truth value as a number. -/
def ofFlag (flag : Bool) : Stored :=
  integer (if flag then 1 else 0)

/-- Whether two stored values are **equal**; with nothing it is unknown. -/
def equals : Stored → Stored → Truth
  | empty, _ | _, empty => none
  | integer a, integer b => some (a == b)
  | integer a, real b | real b, integer a => some (b.toInt? == some a)
  | real a, real b => some (a.same b)
  | text a, text b => some (a == b)
  | text _, _ | _, text _ => some false

/-- Whether a stored value is among some others. -/
def among (value : Stored) : List Stored → Truth
  | [] => some false
  | other :: rest => (value.equals other).or (value.among rest)

/-! ### Numbers spelled by texts -/

/-- Whether a character may stand around a number. -/
def isPadding (c : Char) : Bool :=
  c == ' ' || (9 ≤ c.toNat && c.toNat ≤ 13)

/-- A sign and what follows it; without a sign, no minus. -/
def readSign : List Char → Bool × List Char
  | '-' :: rest => (true, rest)
  | '+' :: rest => (false, rest)
  | rest => (false, rest)

/-- The size of a power of ten. Beyond ten thousand it does not matter any more. -/
def powerSize (digits : List Char) : Nat :=
  digits.foldl
    (fun size c => if size < 10000 then 10 * size + Text.digitsValue [c] else 10000) 0

/-- The power of ten at the end of a number, zero if there is none. -/
def readPower? : List Char → Option Int
  | [] => some 0
  | c :: rest =>
    if c = 'e' ∨ c = 'E' then
      let signed := readSign rest
      if signed.2.isEmpty || !signed.2.all Char.isDigit then none
      else
        let size : Int := powerSize signed.2
        some (if signed.1 then -size else size)
    else none

/-- The number that a text spells: an integer if it has neither point nor power and
fits, a floating-point number otherwise. -/
def numeral? (chars : List Char) : Option Stored :=
  let trimmed := ((chars.dropWhile isPadding).reverse.dropWhile isPadding).reverse
  let signed := readSign trimmed
  let whole := Document.readDigits signed.2
  let fraction := Document.readFraction whole.2
  let decimals := (fraction.map (·.1)).getD []
  let rest := (fraction.map (·.2)).getD whole.2
  if whole.1.isEmpty && decimals.isEmpty then none
  else
    (readPower? rest).map fun power =>
      let digits := Text.digitsValue whole.1
      let value : Int := if signed.1 then -digits else digits
      if fraction.isNone && rest.isEmpty && fits value then integer value
      else ofReal (Scaling.number signed.1 whole.1 decimals power)

end Stored

/-! ### Affinities -/

/-- What a column **prefers to store**. -/
inductive Affinity
  | texts | numbers
deriving DecidableEq, Repr

/-- A value in the form that a column prefers, if it has that form. -/
def Affinity.bring : Affinity → Stored → Stored
  | .texts, .integer value => .text (toString value)
  | .texts, .real value => .text value.columnText
  | .numbers, .text text => (Stored.numeral? text.toList).getD (.text text)
  | .numbers, .real value => .ofReal value
  | _, value => value

/-- A document as a column stores it: its written form, or the number that this
spells. -/
def Stored.ofDocument (document : Value) : Stored :=
  Affinity.numbers.bring (.text document.written)

/-- A document as it **comes back** from its column. Only a bare number changes: it
is read as an integer or a floating-point number according to how it was stored. -/
def Value.reloaded (document : Value) : Value :=
  match document with
  | .integer _ | .real _ =>
    match Stored.ofDocument document with
    | .integer value => .integer value
    | .real value => .real value
    | _ => document
  | _ => document

end Clearance
