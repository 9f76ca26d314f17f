import Clearance.Log.Template

/-!
# Moments

The time of an event is a number of seconds since the beginning of 1970. It is
rounded to the nearest millionth of a second, a half to the even neighbour, and
told in the calendar of today, which is thought to have been in use always. Only
the years from 1 to 9999 can be told.
-/

namespace Clearance.Log

/-- A **moment** told by the calendar. -/
structure Moment where
  /-- The year. -/
  year : Int
  /-- The month, from one. -/
  month : Nat
  /-- The day of the month, from one. -/
  day : Nat
  /-- The seconds since the day began. -/
  second : Nat
deriving DecidableEq, Repr

namespace Moment

/-! ### Days -/

/-- The number of days in four hundred years, after which the calendar repeats. -/
def daysOfCycle : Nat := 146097

/-- The number of days from the first of March in the year 0 to the beginning of
1970. -/
def daysToEpoch : Int := 719468

/-- The year of a cycle, counted from March, that holds the day of the cycle. -/
def yearOfCycle (day : Nat) : Nat :=
  (day - day / 1460 + day / 36524 - day / 146096) / 365

/-- The day of a year counted from March, for a day of the cycle. -/
def dayOfYear (day : Nat) : Nat :=
  let year := yearOfCycle day
  day - (365 * year + year / 4 - year / 100)

/-- The **moment** a number of seconds after the beginning of 1970. -/
def ofSeconds (seconds : Int) : Moment :=
  let days := seconds.fdiv 86400 + daysToEpoch
  let cycle := days.fdiv daysOfCycle
  let day := (days.fmod daysOfCycle).toNat
  let fromMarch := (5 * dayOfYear day + 2) / 153
  let month := if fromMarch < 10 then fromMarch + 3 else fromMarch - 9
  let year : Int := yearOfCycle day + cycle * 400
  { year := if month ≤ 2 then year + 1 else year
    month
    day := dayOfYear day - (153 * fromMarch + 2) / 5 + 1
    second := (seconds.fmod 86400).toNat }

/-! ### Text -/

/-- A number with at least two digits. -/
def twoDigits (n : Nat) : String :=
  String.ofList (Layout.padded 2 n)

/-- The **text of a moment**: its date and its time. -/
def text (moment : Moment) : String :=
  toString moment.year ++ "-" ++ twoDigits moment.month ++ "-" ++ twoDigits moment.day ++ "T" ++
    twoDigits (moment.second / 3600) ++ ":" ++ twoDigits (moment.second / 60 % 60) ++ ":" ++
    twoDigits (moment.second % 60)

end Moment

/-! ### Reading numbers of seconds -/

/-- The number of millionths in a fraction below one. The product is a binary64
number itself before it is rounded. -/
def millionths (num den : Nat) : Nat :=
  match Binary64.ofRatio false (num * 10 ^ 6) den with
  | .finite _ significand exponent =>
    let value := Binary64.ratio significand exponent
    Number.roundHalfEven value.1 value.2
  | .infinite _ => 0

/-- The whole seconds of a number, after it has been rounded to the nearest
millionth. -/
def wholeSeconds : Binary64 → Except Template.Error Int
  | .infinite _ => .error .overflow
  | .finite negative significand exponent =>
    let value := Binary64.ratio significand exponent
    let total : Int := value.1 / value.2 * 10 ^ 6 + millionths (value.1 % value.2) value.2
    .ok ((if negative then -total else total).fdiv (10 ^ 6))

/-- The number of whole seconds that a time is. It has 64 bits; a floating-point number may
be as large as the first that has not. -/
def secondsOf (datum : Datum) : Except Template.Error Int := do
  match datum with
  | .real value =>
    let seconds ← wholeSeconds value
    if seconds < -2 ^ 63 ∨ 2 ^ 63 < seconds then throw .overflow else return seconds
  | datum =>
    match Template.whole? datum with
    | some seconds =>
      if seconds < -2 ^ 63 ∨ 2 ^ 63 ≤ seconds then throw .overflow else return seconds
    | none => throw .mismatch

/-- The moment that a time is, if it can be told. A year beyond them is named by its
remainder in 32 bits. -/
def momentOf (datum : Datum) : Except Template.Error Moment := do
  let moment := Moment.ofSeconds (← secondsOf datum)
  if moment.year < 1900 - 2 ^ 31 ∨ 1900 + 2 ^ 31 ≤ moment.year then throw .tooFar
  else if moment.year < 1 ∨ 9999 < moment.year then
    throw (.malformed s!"year {moment.year.bmod (2 ^ 32)} is out of range")
  else return moment

/-- The whole part of a number that may be given as a text. -/
def wholeOf : Datum → Except Template.Error Int
  | .text value =>
    (Text.decimal value).mapError fun failure => .malformed (failure.message (Text.quoted value))
  | .action value =>
    .error (.malformed (Text.NumeralFailure.malformed.message (Datum.action value).quoted))
  | datum => Template.wholePart datum

/-- The **time of an event**: its moment and the thousandths of a second, which are
given by themselves. -/
def timeText (created thousandths : Datum) : Except Template.Error String := do
  let moment ← momentOf created
  let whole ← wholeOf thousandths
  let digits := Template.fill { zero := true } 3 (Template.showWhole {} 'd' none whole)
  return moment.text ++ "." ++ String.ofList digits ++ "Z"

end Clearance.Log
