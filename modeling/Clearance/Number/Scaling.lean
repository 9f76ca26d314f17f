import Clearance.Number.Extended
import Clearance.Number.Shortest
import Clearance.Text.Numeral

/-!
# Numbers and digits by scaling

A store turns digits into a number, and a number into digits, by **scaling** with powers
of ten in extended arithmetic. It gathers some nineteen digits of a numeral and leaves out
the rest, so that the number that it makes of a numeral is not always the nearest one; and
it writes the first fifteen digits of a number, which may differ in the last place from
those of the number rounded once.
-/

namespace Clearance

namespace Scaling

/-! ### From digits to a number -/

/-- No digits are gathered any more from here on. -/
def gatherLimit : Nat := (2 ^ 63 - 10) / 10

/-- `value` with the digits that follow it gathered, and the number of those that are left
out. -/
def gather (value : Nat) : List Char → Nat × Nat
  | [] => (value, 0)
  | c :: rest =>
    if value < gatherLimit then gather (10 * value + Text.digitsValue [c]) rest
    else (value, rest.length + 1)

/-- A significand multiplied by ten as long as it stays small, at most `power` times, and
the power that is left. -/
def multiplied (significand : Nat) : (power : Nat) → Nat × Nat
  | 0 => (significand, 0)
  | power + 1 =>
    if (2 ^ 63 - 1) / 10 ≤ significand then (significand, power + 1)
    else multiplied (10 * significand) power

/-- A significand divided by ten as long as it has no remainder, at most `power` times, and
the power that is left. -/
def divided (significand : Nat) : (power : Nat) → Nat × Nat
  | 0 => (significand, 0)
  | power + 1 =>
    if significand % 10 = 0 then divided (significand / 10) power
    else (significand, power + 1)

/-- The largest power of ten that is taken in one step. -/
def maxPower : Nat := 307

/-- The power of ten from which on a number is zero or infinite. -/
def farPower : Nat := 342

/-- What a second step scales by: the binary64 number nearest to ten to the power 308. -/
def secondScale : Nat × Nat :=
  match Binary64.ofDecimal false 1 308 with
  | .finite _ significand exponent => Binary64.ratio significand exponent
  | .infinite _ => (1, 1)

/-- A significand scaled **up**. -/
def up (negative : Bool) (significand power : Nat) : Binary64 :=
  let found := multiplied significand power
  let value := Extended.ofNat found.1
  if found.2 ≤ maxPower then (value.mul (Extended.tenTo found.2)).toBinary64 negative
  else if farPower ≤ found.2 then .infinite negative
  else
    match (value.mul (Extended.tenTo (found.2 - (maxPower + 1)))).toBinary64 negative with
    | .finite _ significand exponent =>
      let value := Binary64.ratio significand exponent
      .ofRatio negative (value.1 * secondScale.1) (value.2 * secondScale.2)
    | infinite => infinite

/-- A significand scaled **down**. -/
def down (negative : Bool) (significand power : Nat) : Binary64 :=
  let found := divided significand power
  let value := Extended.ofNat found.1
  if found.2 ≤ maxPower then (value.div (Extended.tenTo found.2)).toBinary64 negative
  else if farPower ≤ found.2 then .ofRatio negative 0 1
  else
    match (value.div (Extended.tenTo (found.2 - (maxPower + 1)))).toBinary64 negative with
    | .finite _ significand exponent =>
      let value := Binary64.ratio significand exponent
      .ofRatio negative (value.1 * secondScale.2) (value.2 * secondScale.1)
    | infinite => infinite

/-- The **number of a numeral**: its digits before and after the point, scaled by a power
of ten. -/
def number (negative : Bool) (whole decimals : List Char) (power : Int) : Binary64 :=
  let front := gather 0 whole
  let all := gather front.1 decimals
  let shift : Int := power + front.2 - (decimals.length - all.2 : Nat)
  if all.1 = 0 then .ofRatio negative 0 1
  else if 0 ≤ shift then up negative all.1 shift.toNat
  else down negative all.1 (-shift).toNat

/-! ### From a number to digits -/

/-- A scale and a power of ten, both raised by a factor as long as the product with the
factor does not exceed a value, at most `times` times. -/
def raise (value factor : Extended) (power : Int) :
    (times : Nat) → Extended × Int → Extended × Int
  | 0, found => found
  | times + 1, found =>
    if (factor.mul found.1).atMost value then
      raise value factor power times (found.1.mul factor, found.2 + power)
    else found

/-- A value and a power of ten, the value multiplied by a factor as long as it is below a
bound, at most `times` times. -/
def lift (bound factor : Extended) (power : Int) :
    (times : Nat) → Extended × Int → Extended × Int
  | 0, found => found
  | times + 1, found =>
    if bound.atMost found.1 then found
    else lift bound factor power times (found.1.mul factor, found.2 - power)

/-- One. -/
def one : Extended := .ofNat 1

/-- Ten. -/
def ten : Extended := .ofNat 10

/-- A value between one and ten, and the power of ten that a positive value was divided
by. -/
def normalized (value : Extended) : Extended × Int :=
  let hundreds := raise value (.ofConstant (10 ^ 100) 1) 100 4 (one, 0)
  let tens := raise value (.ofConstant (10 ^ 10) 1) 10 10 hundreds
  let scale := raise value ten 1 10 tens
  let eights := lift (.ofConstant 1 (10 ^ 8)) (.ofConstant (10 ^ 8) 1) 8 50
    (value.div scale.1, scale.2)
  lift one ten 1 10 eights

/-- Half a unit of the fifteenth digit, made of two constants. -/
def halfUnit : Extended :=
  let product := (Extended.ofConstant 5 (10 ^ 5)).ratio
  let other := (Extended.ofConstant 1 (10 ^ 10)).ratio
  .ofConstant (product.1 * other.1) (product.2 * other.2)

/-- The first digits of a value below ten. -/
def digits (value : Extended) : (count : Nat) → List Char
  | 0 => []
  | count + 1 => Nat.digitChar value.floor :: digits (value.fractionPart.mul ten) count

/-- The **fifteen digits** of a positive value, and the number of them that stand before
the point. -/
def fifteen (value : Extended) : List Char × Int :=
  let found := normalized value
  let rounded := found.1.add halfUnit
  if ten.atMost rounded then (digits (rounded.mul (.ofConstant 1 10)) 15, found.2 + 2)
  else (digits rounded 15, found.2 + 1)

end Scaling

end Clearance
