import Clearance.Number.Shortest

/-!
# Layouts with a precision

A number can also be written with a given precision, rounded to the nearest
decimal with a half going to the even neighbour. There are three layouts: *fixed*
has that many digits after the point, *scientific* has one digit before the point
and an exponent, and *general* counts significant digits, chooses between the
other two by the size of the number, and drops zeros at the end.

A layout may *keep the point* where it would otherwise be left out; the general
one keeps its zeros then, too.
-/

namespace Clearance

/-- How a number is laid out. -/
inductive Layout
  | fixed | scientific | general
deriving DecidableEq, Repr

namespace Layout

open Number

/-- The digits of `n`, with zeros in front to make up `width`. -/
def padded (width n : Nat) : List Char :=
  let digits := Nat.toDigits 10 n
  List.replicate (width - digits.length) '0' ++ digits

/-- Digits after a point; without any, the point is left out unless it is kept. -/
def fraction (keepPoint : Bool) (digits : List Char) : List Char :=
  if digits.isEmpty && !keepPoint then [] else '.' :: digits

/-- The quotient `num / den` with `places` digits after the point. -/
def fixedText (keepPoint : Bool) (places num den : Nat) : List Char :=
  let digits := padded (places + 1) (roundHalfEven (num * 10 ^ places) den)
  let whole := digits.length - places
  digits.take whole ++ fraction keepPoint (digits.drop whole)

/-- A positive quotient rounded to `count` significant digits: the digits, and
the number of them that stand before the point. -/
def significant (count num den : Nat) : Nat × Int :=
  let point := Binary64.pointOf num den
  let places : Int := (count : Int) - point
  let rounded :=
    if 0 ≤ places then roundHalfEven (num * 10 ^ places.toNat) den
    else roundHalfEven num (den * 10 ^ (-places).toNat)
  if rounded = 10 ^ count then (10 ^ (count - 1), point + 1) else (rounded, point)

/-- The first `count` digits of a quotient and the place of its point; those of zero are
zeros. -/
def leading (count num den : Nat) : List Char × Int :=
  if num = 0 then (List.replicate count '0', 1)
  else
    let found := significant count num den
    (padded count found.1, found.2)

/-- Digits in the scientific layout. -/
def scientificText (keepPoint : Bool) (digits : List Char) (point : Int) : List Char :=
  digits.take 1 ++ fraction keepPoint (digits.drop 1) ++ 'e' :: Binary64.exponentText (point - 1)

/-- Digits without the zeros at their end, but not fewer than `least`. -/
def withoutEndZeros (least : Nat) (digits : List Char) : List Char :=
  let kept := (digits.reverse.dropWhile (· == '0')).reverse
  digits.take (max least kept.length)

/-- Digits in the general layout, of which `count` are significant. -/
def generalText (keepPoint : Bool) (count : Nat) (digits : List Char) (point : Int) : List Char :=
  if point ≤ -4 ∨ (count : Int) < point then
    scientificText keepPoint (if keepPoint then digits else withoutEndZeros 1 digits) point
  else if point ≤ 0 then
    let after := List.replicate (-point).toNat '0' ++ digits
    '0' :: fraction keepPoint (if keepPoint then after else withoutEndZeros 0 after)
  else
    let after := digits.drop point.toNat
    digits.take point.toNat ++
      fraction keepPoint (if keepPoint then after else withoutEndZeros 0 after)

/-- The absolute value `num / den` in a layout. -/
def text (layout : Layout) (keepPoint : Bool) (precision num den : Nat) : List Char :=
  match layout with
  | fixed => fixedText keepPoint precision num den
  | scientific =>
    let found := leading (precision + 1) num den
    scientificText keepPoint found.1 found.2
  | general =>
    let count := max precision 1
    let found := leading count num den
    generalText keepPoint count found.1 found.2

end Layout

/-- A number in a layout, with a minus sign if it is negative. -/
def Binary64.laidOut (layout : Layout) (keepPoint : Bool) (precision : Nat) : Binary64 → List Char
  | .infinite negative => (if negative then ['-'] else []) ++ ['i', 'n', 'f']
  | .finite negative significand exponent =>
    let value := ratio significand exponent
    (if negative then ['-'] else []) ++ layout.text keepPoint precision value.1 value.2

end Clearance
