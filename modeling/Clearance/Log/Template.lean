import Clearance.Log.Datum
import Clearance.Number.Layout
import Clearance.Text.Numeral

/-!
# Message templates

A message is a **template**: text in which conversions stand for arguments. Two
percent signs stand for one; otherwise a percent sign begins a conversion. It may
name a member of the arguments, and may carry flags, a width and a precision, of
which the last two can be arguments themselves. It ends with a letter that says
how the argument is shown.

A template is read piece by piece, and each piece is shown before the next one is
looked at, so the first thing that is wrong decides, whether it is the template or
an argument.
-/

namespace Clearance.Log

/-! ### Pieces -/

/-- A width or a precision. -/
inductive Extent
  /-- None is given. -/
  | unset
  /-- A number. -/
  | number (value : Nat)
  /-- The next argument. -/
  | argument
deriving DecidableEq, Repr

/-- The flags of a conversion. -/
structure ShowFlags where
  /-- Whether the text stands to the left of its field. -/
  left : Bool := false
  /-- Whether a positive number has a plus sign. -/
  plus : Bool := false
  /-- Whether a positive number has a blank for its sign. -/
  blank : Bool := false
  /-- Whether a number is shown in its alternate form. -/
  alternate : Bool := false
  /-- Whether a number is filled with zeros. -/
  zero : Bool := false
deriving DecidableEq, Repr

/-- Which argument a conversion takes. -/
inductive Choice
  /-- The next one. -/
  | next
  /-- The member with a name. -/
  | member (name : String)
  /-- A member whose name does not end. -/
  | unfinished
deriving DecidableEq, Repr

/-- A **conversion**. The letter is missing when the template ends before it. -/
structure Conversion where
  /-- Which argument it takes. -/
  choice : Choice
  /-- The flags. -/
  flags : ShowFlags
  /-- The width of the field. -/
  width : Extent
  /-- The precision. -/
  precision : Extent
  /-- The letter, and where it stands in the template. -/
  letter : Option (Char × Nat)
deriving DecidableEq, Repr

/-- A **piece** of a template. -/
inductive Piece
  | literal (c : Char)
  | conversion (conversion : Conversion)
deriving Repr

namespace Template

/-! ### Reading pieces -/

/-- The flags at the beginning of a conversion, and what follows. -/
def readFlags (flags : ShowFlags) : List Char → ShowFlags × List Char
  | '-' :: rest => readFlags { flags with left := true } rest
  | '+' :: rest => readFlags { flags with plus := true } rest
  | ' ' :: rest => readFlags { flags with blank := true } rest
  | '#' :: rest => readFlags { flags with alternate := true } rest
  | '0' :: rest => readFlags { flags with zero := true } rest
  | rest => (flags, rest)

/-- A width or, with `unset` for a missing one, a precision; and what follows. -/
def readExtent (missing : Extent) (cs : List Char) : Extent × List Char :=
  match cs with
  | '*' :: rest => (.argument, rest)
  | cs =>
    let digits := cs.takeWhile Char.isDigit
    if digits.isEmpty then (missing, cs)
    else (.number (Text.digitsValue digits), cs.dropWhile Char.isDigit)

/-- The precision behind a point, zero if none follows it, and what comes next. -/
def readPrecision : List Char → Extent × List Char
  | '.' :: rest => readExtent (.number 0) rest
  | cs => (.unset, cs)

/-- What follows one letter for the size of a number, which says nothing. -/
def skipSize : List Char → List Char
  | 'h' :: rest | 'l' :: rest | 'L' :: rest => rest
  | cs => cs

/-- The name of a member up to the parenthesis that closes it, `depth` being the
number of those opened within; and what follows. -/
def readName (depth : Nat) (name : List Char) : List Char → Option (String × List Char)
  | [] => none
  | ')' :: rest =>
    match depth with
    | 0 => some (String.ofList name.reverse, rest)
    | depth + 1 => readName depth (')' :: name) rest
  | '(' :: rest => readName (depth + 1) ('(' :: name) rest
  | c :: rest => readName depth (c :: name) rest

/-- Which argument a conversion takes, and what follows. -/
def readChoice : List Char → Choice × List Char
  | '(' :: rest =>
    match readName 0 [] rest with
    | some (name, rest) => (.member name, rest)
    | none => (.unfinished, [])
  | cs => (.next, cs)

/-- The conversion after a percent sign, and what follows; `length` is the number of
characters of the whole template. -/
def readConversion (length : Nat) (cs : List Char) : Conversion × List Char :=
  let (choice, cs) := readChoice cs
  let (flags, cs) := readFlags {} cs
  let (width, cs) := readExtent .unset cs
  let (precision, cs) := readPrecision cs
  let rest := skipSize cs
  match rest with
  | [] => ({ choice, flags, width, precision, letter := none }, [])
  | c :: tail =>
    ({ choice, flags, width, precision, letter := some (c, length - rest.length) }, tail)

/-- The pieces of the rest of a template, of which at most `fuel` are read. -/
def readPieces (length : Nat) : (fuel : Nat) → List Char → List Piece
  | 0, _ => []
  | _ + 1, [] => []
  | fuel + 1, '%' :: '%' :: cs => .literal '%' :: readPieces length fuel cs
  | fuel + 1, '%' :: cs =>
    let (conversion, rest) := readConversion length cs
    .conversion conversion :: readPieces length fuel rest
  | fuel + 1, c :: cs => .literal c :: readPieces length fuel cs

/-- The **pieces** of a template. Each takes at least one character, so there are no
more than it has characters. -/
def pieces (template : String) : List Piece :=
  readPieces template.toList.length template.toList.length template.toList

/-! ### Arguments -/

/-- Why an entry cannot be shown. -/
inductive Error
  /-- An argument is missing, left over or of the wrong kind. -/
  | mismatch
  /-- The template itself is wrong. -/
  | malformed (message : String)
  /-- A number is out of range. -/
  | overflow
  /-- There is no member of a name. -/
  | missingKey
  /-- There are too few items. -/
  | missingItem
  /-- Something is no failure that could be told about. -/
  | noFailure
  /-- A moment is too far away to be told. -/
  | tooFar
  /-- A text is longer than any memory. -/
  | tooLong
deriving DecidableEq, Repr

/-- The **arguments** of a template: the ones still to be taken, and the members that
conversions may name. A single argument that is a list or an object need not be
taken at all. -/
structure Arguments where
  /-- The arguments that have not been taken. -/
  rest : List Datum
  /-- The argument whose members may be named. -/
  container : Option Datum := none

/-- The arguments that a datum stands for. -/
def Arguments.of (datum : Datum) : Arguments :=
  match datum with
  | .tuple items => { rest := items }
  | .list _ | .object _ => { rest := [datum], container := some datum }
  | datum => { rest := [datum] }

/-- The next argument and the arguments after it. -/
def Arguments.next (arguments : Arguments) : Except Error (Datum × Arguments) :=
  match arguments.rest with
  | first :: rest => .ok (first, { arguments with rest })
  | [] => .error .mismatch

/-- The arguments once the member with a name is to be taken next. -/
def Arguments.choose (arguments : Arguments) : Choice → Except Error Arguments
  | .next => .ok arguments
  | .unfinished =>
    if arguments.container.isSome then .error (.malformed "incomplete format key")
    else .error .mismatch
  | .member name =>
    match arguments.container with
    | some (.object members) =>
      match members.lookup name with
      | some datum => .ok { arguments with rest := [datum] }
      | none => .error .missingKey
    | _ => .error .mismatch

/-- Whether an argument that had to be taken is left. -/
def Arguments.isLeftOver (arguments : Arguments) : Bool :=
  arguments.container.isNone && !arguments.rest.isEmpty

/-! ### Showing one argument -/

/-- The whole number that an argument is, if it is one. -/
def whole? : Datum → Option Int
  | .integer value => some value
  | .flag value => some (if value then 1 else 0)
  | _ => none

/-- The whole part of the number that an argument is. -/
def wholePart (datum : Datum) : Except Error Int :=
  match datum with
  | .real value =>
    match value.truncate? with
    | some whole => .ok whole
    | none => .error .overflow
  | .id value => .ok value.number
  | datum =>
    match whole? datum with
    | some whole => .ok whole
    | none => .error .mismatch

/-- The floating-point number that an argument is. -/
def number (datum : Datum) : Except Error Binary64 :=
  match datum with
  | .real value => .ok value
  | datum =>
    match whole? datum with
    | some whole =>
      match Binary64.ofRatio (decide (whole < 0)) whole.natAbs 1 with
      | .infinite _ => .error .overflow
      | value => .ok value
    | none => .error .mismatch

/-- What stands before the digits of a number in a base that is marked. -/
def baseMark : Char → List Char
  | 'o' => ['0', 'o']
  | 'x' => ['0', 'x']
  | 'X' => ['0', 'X']
  | _ => []

/-- The base that a letter stands for. -/
def base : Char → Nat
  | 'o' => 8
  | 'x' | 'X' => 16
  | _ => 10

/-- A number shown: its sign, the mark of its base, and its digits. -/
structure Shown where
  /-- The sign, if there is one. -/
  sign : List Char := []
  /-- The mark of the base. -/
  mark : List Char := []
  /-- The rest. -/
  body : List Char
  /-- Whether it is a number. -/
  isNumber : Bool := true

/-- The sign of a number: a minus, or what the flags put before other numbers. -/
def signOf (flags : ShowFlags) (negative : Bool) : List Char :=
  if negative then ['-']
  else if flags.plus then ['+']
  else if flags.blank then [' ']
  else []

/-- A whole number in the base of a letter, with at least as many digits as the
precision says. -/
def showWhole (flags : ShowFlags) (letter : Char) (precision : Option Nat) (value : Int) : Shown :=
  let digits := Nat.toDigits (base letter) value.natAbs
  let cased := if letter = 'X' then digits.map Char.toUpper else digits
  let padding := List.replicate ((precision.getD 0) - digits.length) '0'
  { sign := signOf flags (decide (value < 0))
    mark := if flags.alternate then baseMark letter else []
    body := padding ++ cased }

/-- The most digits that can be asked of a whole number. -/
def maxWholeDigits : Nat := 2 ^ 31 - 4

/-- A whole number shown, unless too many digits are asked of it. -/
def showWhole? (flags : ShowFlags) (letter : Char) (precision : Option Nat) (value : Int) :
    Except Error Shown :=
  if maxWholeDigits < precision.getD 0 then .error .overflow
  else .ok (showWhole flags letter precision value)

/-- The layout that a letter stands for. -/
def layout (letter : Char) : Layout :=
  match letter.toLower with
  | 'e' => .scientific
  | 'f' => .fixed
  | _ => .general

/-- A floating-point number in the layout of a letter; six is the usual precision. -/
def showReal (flags : ShowFlags) (letter : Char) (precision : Option Nat) (value : Binary64) :
    Shown :=
  let cs := value.laidOut (layout letter) flags.alternate (precision.getD 6)
  let cased := if letter.isUpper then cs.map Char.toUpper else cs
  let negative := cased.head? == some '-'
  { sign := signOf flags negative, body := if negative then cased.drop 1 else cased }

/-- The character that an argument is. -/
def showChar (datum : Datum) : Except Error Shown :=
  match datum with
  | .text value =>
    match value.toList with
    | [c] => .ok { body := [c], isNumber := false }
    | _ => .error .mismatch
  | datum =>
    match whole? datum with
    | some code =>
      if 0 ≤ code ∧ code < 0x110000 then
        .ok { body := [Char.ofNat code.toNat], isNumber := false }
      else .error .overflow
    | none => .error .mismatch

/-- A text with every character outside ASCII written by its number. -/
def asciiOnly (text : String) : List Char :=
  text.toList.flatMap fun c =>
    if c.toNat < 128 then [c]
    else if c.toNat < 0x100 then '\\' :: 'x' :: Text.hexDigits 2 c.toNat
    else if c.toNat < 0x10000 then '\\' :: 'u' :: Text.hexDigits 4 c.toNat
    else '\\' :: 'U' :: Text.hexDigits 8 c.toNat

/-- A text, cut off at the precision. -/
def showText (precision : Option Nat) (cs : List Char) : Shown :=
  { body := (match precision with
      | some most => cs.take most
      | none => cs)
    isNumber := false }

/-- The complaint about a letter that is none of those. -/
def unsupported (letter : Char) (index : Nat) : Error :=
  let shown := if 31 ≤ letter.toNat ∧ letter.toNat ≤ 126 then letter else '?'
  let code := String.ofList (Nat.toDigits 16 letter.toNat)
  .malformed s!"unsupported format character '{shown}' (0x{code}) at index {index}"

/-- An argument as a letter asks for it. -/
def showDatum (flags : ShowFlags) (letter : Char) (index : Nat) (precision : Option Nat)
    (datum : Datum) : Except Error Shown :=
  if letter = 's' then .ok (showText precision datum.plain.toList)
  else if letter = 'r' then .ok (showText precision datum.quoted.toList)
  else if letter = 'a' then .ok (showText precision (asciiOnly datum.quoted))
  else if ['d', 'i', 'u'].contains letter then
    (wholePart datum).bind (showWhole? flags letter precision)
  else if ['o', 'x', 'X'].contains letter then
    match whole? datum with
    | some value => showWhole? flags letter precision value
    | none => .error .mismatch
  else if ['e', 'E', 'f', 'F', 'g', 'G'].contains letter then
    (number datum).map (showReal flags letter precision)
  else if letter = 'c' then showChar datum
  else .error (unsupported letter index)

/-- What is shown, filled up to a width: with blanks, or a number with zeros between
its sign and its digits. -/
def fill (flags : ShowFlags) (width : Nat) (shown : Shown) : List Char :=
  let front := shown.sign ++ shown.mark
  let missing := width - (front.length + shown.body.length)
  if flags.left then front ++ shown.body ++ List.replicate missing ' '
  else if flags.zero && shown.isNumber then
    front ++ List.replicate missing '0' ++ shown.body
  else List.replicate missing ' ' ++ front ++ shown.body

/-! ### Showing a template -/

/-- The largest width. -/
def maxWidth : Nat := 2 ^ 63 - 1

/-- The width of the widest field that is made. -/
def maxMade : Nat := 2 ^ 40

/-- The largest precision. -/
def maxPrecision : Nat := 2 ^ 31 - 1

/-- The value of a width: a negative argument puts the text to the left. -/
def takeWidth (flags : ShowFlags) (arguments : Arguments) :
    Extent → Except Error (ShowFlags × Nat × Arguments)
  | .unset => .ok (flags, 0, arguments)
  | .number value =>
    if maxWidth < value then .error (.malformed "width too big") else .ok (flags, value, arguments)
  | .argument => do
    let (datum, rest) ← arguments.next
    match whole? datum with
    | none => throw .mismatch
    | some value =>
      if maxWidth < value.natAbs then throw .overflow
      else
        let flags := if value < 0 then { flags with left := true } else flags
        return (flags, value.natAbs, rest)

/-- The value of a precision: a negative argument counts as zero. -/
def takePrecision (arguments : Arguments) : Extent → Except Error (Option Nat × Arguments)
  | .unset => .ok (none, arguments)
  | .number value =>
    if maxPrecision < value then .error (.malformed "precision too big")
    else .ok (some value, arguments)
  | .argument => do
    let (datum, rest) ← arguments.next
    match whole? datum with
    | none => throw .mismatch
    | some value =>
      if maxPrecision < value.natAbs then throw .overflow else return (some value.toNat, rest)

/-- What a conversion shows, and the arguments left. -/
def showConversion (conversion : Conversion) (arguments : Arguments) :
    Except Error (List Char × Arguments) := do
  let arguments ← arguments.choose conversion.choice
  let (flags, width, arguments) ← takeWidth conversion.flags arguments conversion.width
  let (precision, arguments) ← takePrecision arguments conversion.precision
  match conversion.letter with
  | none => throw (.malformed "incomplete format")
  | some (letter, index) =>
    let (datum, arguments) ← arguments.next
    let shown ← showDatum flags letter index precision datum
    if maxMade < width then throw .tooLong
    else return (fill flags width shown, arguments)

/-- What some pieces show. -/
def showPieces : List Piece → Arguments → Except Error (List Char)
  | [], arguments => if arguments.isLeftOver then .error .mismatch else .ok []
  | .literal c :: rest, arguments => (showPieces rest arguments).map (c :: ·)
  | .conversion conversion :: rest, arguments => do
    let (cs, arguments) ← showConversion conversion arguments
    return cs ++ (← showPieces rest arguments)

/-- A template with its arguments filled in. -/
def render (template : String) (arguments : Datum) : Except Error String :=
  (showPieces (pieces template) (.of arguments)).map String.ofList

end Template

end Clearance.Log
