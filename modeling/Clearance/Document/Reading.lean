import Clearance.Document.Value
import Clearance.Text.Numeral

/-!
# Reading documents

A reader for the notation of JSON over a list of characters. Each part of it
returns what is left of the input, and the nesting of lists and objects is
bounded by a measure that the length of the input supplies, so the reader is a
total function. A number with a point or an exponent is a binary floating-point
number, any other an integer; a member that is written twice keeps its first
place and its last value.
-/

namespace Clearance

namespace Document

/-- The input from its first character that is not a blank of the notation. -/
def skipBlanks (input : List Char) : List Char :=
  input.dropWhile fun c => c == ' ' || c == '\n' || c == '\r' || c == '\t'

/-! ### Texts -/

/-- The value of a hexadecimal digit. -/
def hexValue? (c : Char) : Option Nat :=
  if '0' ≤ c ∧ c ≤ '9' then some (c.toNat - 48)
  else if 'a' ≤ c ∧ c ≤ 'f' then some (c.toNat - 87)
  else if 'A' ≤ c ∧ c ≤ 'F' then some (c.toNat - 55)
  else none

/-- The UTF-16 unit that four digits stand for. -/
def unit? (a b c d : Char) : Option Nat := do
  let a ← hexValue? a
  let b ← hexValue? b
  let c ← hexValue? c
  let d ← hexValue? d
  return ((a * 16 + b) * 16 + c) * 16 + d

/-- The character after a backslash. -/
def letterEscape? : Char → Option Char
  | '"' => some '"'
  | '\\' => some '\\'
  | '/' => some '/'
  | 'b' => some '\x08'
  | 'f' => some '\x0c'
  | 'n' => some '\n'
  | 'r' => some '\r'
  | 't' => some '\t'
  | _ => none

/-- A high unit that waits for its low unit is followed by `unit`: the character
the two make, or the replacement character for each unit that stands alone. -/
def joinUnits (high : Option Nat) (unit : Nat) : List Char × Option Nat :=
  let alone := if high.isSome then ['\ufffd'] else []
  if 0xD800 ≤ unit ∧ unit < 0xDC00 then (alone, some unit)
  else if 0xDC00 ≤ unit ∧ unit < 0xE000 then
    match high with
    | some first => ([Char.ofNat (0x10000 + (first - 0xD800) * 0x400 + (unit - 0xDC00))], none)
    | none => (['\ufffd'], none)
  else (alone ++ [Char.ofNat unit], none)

/-- The rest of a text after its opening quote, given the characters read so far
in reverse and a high unit that waits for its low unit. -/
def readText (done : List Char) (high : Option Nat) : List Char → Option (String × List Char)
  | [] => none
  | '"' :: rest =>
    some (String.ofList ((if high.isSome then '\ufffd' :: done else done).reverse), rest)
  | '\\' :: 'u' :: a :: b :: c :: d :: rest =>
    match unit? a b c d with
    | none => none
    | some unit =>
      let joined := joinUnits high unit
      readText (joined.1.reverse ++ done) joined.2 rest
  | '\\' :: c :: rest =>
    match letterEscape? c with
    | none => none
    | some char =>
      readText (char :: (if high.isSome then '\ufffd' :: done else done)) none rest
  | c :: rest => readText (c :: (if high.isSome then '\ufffd' :: done else done)) none rest

/-! ### Numbers -/

/-- The longest beginning of the input that consists of digits, and the rest. -/
def readDigits (input : List Char) : List Char × List Char :=
  (input.takeWhile Char.isDigit, input.dropWhile Char.isDigit)

/-- The part of a number after its point, if it has one. -/
def readFraction : List Char → Option (List Char × List Char)
  | '.' :: rest => some (readDigits rest)
  | _ => none

/-- The exponent of a number, if it has one. -/
def readExponent : List Char → Option (Int × List Char)
  | c :: rest =>
    if c = 'e' ∨ c = 'E' then
      match rest with
      | '-' :: rest =>
        let digits := readDigits rest
        some (-(Text.digitsValue digits.1 : Int), digits.2)
      | '+' :: rest =>
        let digits := readDigits rest
        some ((Text.digitsValue digits.1 : Int), digits.2)
      | rest =>
        let digits := readDigits rest
        some ((Text.digitsValue digits.1 : Int), digits.2)
    else none
  | [] => none

/-- A number, with its sign already read. -/
def readNumber (negative : Bool) (input : List Char) : Option (Value × List Char) :=
  let whole := readDigits input
  if whole.1.isEmpty then none
  else
    let fraction := readFraction whole.2
    let afterFraction := (fraction.map (·.2)).getD whole.2
    let exponent := readExponent afterFraction
    let rest := (exponent.map (·.2)).getD afterFraction
    if fraction.isNone && exponent.isNone then
      let value : Int := Text.digitsValue whole.1
      some (.integer (if negative then -value else value), rest)
    else
      let decimals := (fraction.map (·.1)).getD []
      let digits := Text.digitsValue (whole.1 ++ decimals)
      let scale := (exponent.map (·.1)).getD 0 - decimals.length
      some (.real (Binary64.ofDecimal negative digits scale), rest)

/-! ### Values -/

/-- The rest of the input after a fixed word. -/
def afterWord? (word : String) (input : List Char) : Option (List Char) :=
  if word.toList.isPrefixOf input then some (input.drop word.length) else none

mutual

/-- A value at the beginning of the input, nested at most `depth` levels. -/
def readValue (depth : Nat) (input : List Char) : Option (Value × List Char) :=
  match depth with
  | 0 => none
  | depth + 1 =>
    match skipBlanks input with
    | '"' :: rest => (readText [] none rest).map fun read => (.text read.1, read.2)
    | '[' :: rest =>
      match skipBlanks rest with
      | ']' :: rest => some (.list [], rest)
      | rest => (readItems depth rest).map fun read => (.list read.1, read.2)
    | '\x7b' :: rest =>
      match skipBlanks rest with
      | '\x7d' :: rest => some (.object [], rest)
      | rest => (readMembers depth [] rest).map fun read => (.object read.1, read.2)
    | '-' :: rest =>
      match afterWord? "Infinity" rest with
      | some rest => some (.real (.infinite true), rest)
      | none => readNumber true rest
    | rest =>
      match afterWord? "null" rest, afterWord? "true" rest, afterWord? "false" rest with
      | some rest, _, _ => some (.null, rest)
      | _, some rest, _ => some (.flag true, rest)
      | _, _, some rest => some (.flag false, rest)
      | _, _, _ =>
        match afterWord? "Infinity" rest with
        | some rest => some (.real (.infinite false), rest)
        | none => readNumber false rest

/-- The items of a list after its opening bracket. -/
def readItems (depth : Nat) (input : List Char) : Option (List Value × List Char) :=
  match depth with
  | 0 => none
  | depth + 1 =>
    match readValue depth input with
    | none => none
    | some (item, rest) =>
      match skipBlanks rest with
      | ']' :: rest => some ([item], rest)
      | ',' :: rest => (readItems depth rest).map fun read => (item :: read.1, read.2)
      | _ => none

/-- The members of an object after its opening brace, added to those read so
far. -/
def readMembers (depth : Nat) (done : Members) (input : List Char) :
    Option (Members × List Char) :=
  match depth with
  | 0 => none
  | depth + 1 =>
    match skipBlanks input with
    | '"' :: rest =>
      match readText [] none rest with
      | none => none
      | some (name, rest) =>
        match skipBlanks rest with
        | ':' :: rest =>
          match readValue depth rest with
          | none => none
          | some (value, rest) =>
            let done := done.put name value
            match skipBlanks rest with
            | '\x7d' :: rest => some (done, rest)
            | ',' :: rest => readMembers depth done rest
            | _ => none
        | _ => none
    | _ => none

end

/-- The **document** written in `text`, or `none` if the notation is broken. -/
def read? (text : String) : Option Value :=
  let input := text.toList
  match readValue (input.length + 1) input with
  | some (value, rest) => if (skipBlanks rest).isEmpty then some value else none
  | none => none

end Document

end Clearance
