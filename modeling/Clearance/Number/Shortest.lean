import Clearance.Number.Binary64

/-!
# Shortest decimals

A number is written with the **fewest digits that read back** as the same
number, and among the decimals with that many digits the nearest one. The
decimals with `n` digits form a grid; the first grid, from one digit upwards,
of which one of the two neighbours of the number lies within the interval that
rounds to it, decides. All comparisons are between natural numbers.

The layout is a second matter: `Clearance.Binary64.text` writes the digits
positionally while the point lies near them, and with an exponent of at least
two digits otherwise.
-/

namespace Clearance

/-- A **decimal**: the number `digits * 10 ^ exponent`. -/
structure Decimal where
  /-- The digits, read as one number. -/
  digits : Nat
  /-- The power of ten that scales them. -/
  exponent : Int
deriving DecidableEq, Repr

namespace Binary64

/-! ### The interval that rounds to a number -/

/-- The natural numbers that stand for a number and the ends of its interval,
on a common scale, together with one unit of a decimal grid. -/
structure Gauge where
  /-- The lower end. -/
  low : Nat
  /-- The number itself. -/
  value : Nat
  /-- The upper end. -/
  high : Nat
  /-- The distance of two neighbours on the grid. -/
  unit : Nat

/-- The gauge of `significand * 2 ^ exponent` on the grid of `10 ^ grid`. The
interval ends halfway to the neighbours; below a power of two the neighbour is
nearer. -/
def gauge (significand : Nat) (exponent grid : Int) : Gauge :=
  let quarter := exponent - 2
  let scale := 2 ^ quarter.toNat * 10 ^ (-grid).toNat
  let below := if significand = 2 ^ 52 ∧ minExponent < exponent then 1 else 2
  { low := (4 * significand - below) * scale
    value := 4 * significand * scale
    high := (4 * significand + 2) * scale
    unit := 10 ^ grid.toNat * 2 ^ (-quarter).toNat }

/-- Whether the multiple `n` of the unit lies in the interval; its ends belong
to it when the significand is even. -/
def Gauge.admits (g : Gauge) (even : Bool) (n : Nat) : Bool :=
  if even then g.low ≤ n * g.unit && n * g.unit ≤ g.high
  else g.low < n * g.unit && n * g.unit < g.high

/-- The neighbour of the number on the grid that reads back as it, the nearer
one if both do. -/
def Gauge.nearest? (g : Gauge) (even : Bool) : Option Nat :=
  let below := g.value / g.unit
  let above := below + 1
  match g.admits even below, g.admits even above with
  | true, true =>
    let down := g.value - below * g.unit
    let up := above * g.unit - g.value
    some (if down < up ∨ (down = up ∧ below % 2 = 0) then below else above)
  | true, false => some below
  | false, true => some above
  | false, false => none

/-! ### The first grid with a hit -/

/-- How many digits stand before the point of `num / den`; negative counts are
zeros after it. -/
def pointOf (num den : Nat) : Int :=
  let guess : Int := (decimalLength num : Int) - decimalLength den
  let reached :=
    if 0 ≤ guess then den * 10 ^ guess.toNat ≤ num else den ≤ num * 10 ^ (-guess).toNat
  if reached then guess + 1 else guess

/-- The **shortest decimal** that reads back as `significand * 2 ^ exponent`. -/
def shortest (significand : Nat) (exponent : Int) : Decimal :=
  let value := ratio significand exponent
  let point := pointOf value.1 value.2
  let even := significand % 2 == 0
  let grids := (List.range 17).map fun (n : Nat) => point - (n + 1 : Nat)
  let hit := grids.findSome? fun grid =>
    ((gauge significand exponent grid).nearest? even).map fun digits => Decimal.mk digits grid
  hit.getD ⟨0, 0⟩

/-! ### Layout -/

/-- The digits of a decimal without the zeros at its end. -/
def Decimal.significantDigits (d : Decimal) : List Char :=
  let digits := Nat.toDigits 10 d.digits
  let kept := (digits.reverse.dropWhile (· == '0')).reverse
  if kept.isEmpty then ['0'] else kept

/-- An exponent of ten: a sign and at least two digits. -/
def exponentText (exponent : Int) : List Char :=
  let digits := Nat.toDigits 10 exponent.natAbs
  (if exponent < 0 then '-' else '+') :: (if digits.length < 2 then '0' :: digits else digits)

/-- The digits `ds` with the point after the first `point` of them: positional
while at most sixteen digits stand before the point and at most three zeros
after it, scientific otherwise. -/
def layout (ds : List Char) (point : Int) : List Char :=
  if -4 < point ∧ point ≤ 16 then
    if point ≤ 0 then '0' :: '.' :: List.replicate (-point).toNat '0' ++ ds
    else if (ds.length : Int) ≤ point then
      ds ++ List.replicate (point.toNat - ds.length) '0' ++ ['.', '0']
    else ds.take point.toNat ++ '.' :: ds.drop point.toNat
  else
    let tail := ds.drop 1
    ds.take 1 ++ (if tail.isEmpty then [] else '.' :: tail) ++ 'e' :: exponentText (point - 1)

/-- The **text of a number**: its shortest decimal, laid out. -/
def text : Binary64 → String
  | .infinite negative => if negative then "-inf" else "inf"
  | .finite negative significand exponent =>
    let body :=
      if significand = 0 then ['0', '.', '0']
      else
        let d := shortest significand exponent
        let ds := Decimal.significantDigits d
        let point := (decimalLength d.digits : Int) + d.exponent
        layout ds point
    String.ofList (if negative then '-' :: body else body)

end Binary64

end Clearance
