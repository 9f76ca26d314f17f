import Clearance.Number.Binary64

/-!
# Extended numbers

An **extended** number is not negative and has a significand of sixty-four bits: eleven
more than a binary64 number, so that a few roundings in a row hardly ever show in the
binary64 number that comes out at the end, but sometimes they do. The exponent has no
bounds. Every operation rounds its exact result to the nearest extended number, a half
to the even neighbour.
-/

namespace Clearance

/-- A non-negative **extended** number: `significand * 2 ^ exponent`. -/
structure Extended where
  /-- A number of at most sixty-four bits. -/
  significand : Nat
  /-- The power of two that scales it. -/
  exponent : Int
deriving DecidableEq, Repr, Inhabited

namespace Extended

open Number

/-- The bits of a significand. -/
def width : Nat := 64

/-! ### Rounding -/

/-- The extended number nearest to `num / den`. -/
def ofRatio (num den : Nat) : Extended :=
  if num = 0 then ⟨0, 0⟩
  else
    let estimate : Int := (Nat.log2 num : Int) - Nat.log2 den - (width - 1 : Nat)
    let trial := scaled num den estimate
    let exponent := if trial.1 / trial.2 < 2 ^ (width - 1) then estimate - 1 else estimate
    let exact := scaled num den exponent
    let significand := roundHalfEven exact.1 exact.2
    if significand = 2 ^ width then ⟨2 ^ (width - 1), exponent + 1⟩ else ⟨significand, exponent⟩

/-- The extended number nearest to a natural number. -/
def ofNat (n : Nat) : Extended :=
  ofRatio n 1

/-- An extended number as a quotient. -/
def ratio (x : Extended) : Nat × Nat :=
  Binary64.ratio x.significand x.exponent

/-- The binary64 number nearest to an extended number, with a sign. -/
def toBinary64 (negative : Bool) (x : Extended) : Binary64 :=
  Binary64.ofRatio negative x.ratio.1 x.ratio.2

/-- The absolute value of a binary64 number; an infinity has none. -/
def ofBinary64? : Binary64 → Option Extended
  | .finite _ significand exponent => some ⟨significand, exponent⟩
  | .infinite _ => none

/-- The extended number that is the binary64 number nearest to `num / den`. -/
def ofConstant (num den : Nat) : Extended :=
  (ofBinary64? (.ofRatio false num den)).getD ⟨0, 0⟩

/-! ### Arithmetic -/

/-- The sum. -/
def add (x y : Extended) : Extended :=
  ofRatio (x.ratio.1 * y.ratio.2 + y.ratio.1 * x.ratio.2) (x.ratio.2 * y.ratio.2)

/-- The product. -/
def mul (x y : Extended) : Extended :=
  ofRatio (x.ratio.1 * y.ratio.1) (x.ratio.2 * y.ratio.2)

/-- The quotient. -/
def div (x y : Extended) : Extended :=
  ofRatio (x.ratio.1 * y.ratio.2) (x.ratio.2 * y.ratio.1)

/-- Whether one number is at most another. -/
def atMost (x y : Extended) : Bool :=
  x.ratio.1 * y.ratio.2 ≤ y.ratio.1 * x.ratio.2

/-- The natural number below or equal to an extended number. -/
def floor (x : Extended) : Nat :=
  x.ratio.1 / x.ratio.2

/-- What is left of an extended number above its `floor`. -/
def fractionPart (x : Extended) : Extended :=
  ofRatio (x.ratio.1 % x.ratio.2) x.ratio.2

/-! ### Powers of ten -/

/-- `result` times `base` to the power `n`, the powers of two of the base being taken one
after the other in `steps` steps. -/
def powerFrom (base result : Extended) (n : Nat) : (steps : Nat) → Extended
  | 0 => result
  | steps + 1 =>
    let next := if n % 2 = 1 then result.mul base else result
    if n / 2 = 0 then next else powerFrom (base.mul base) next (n / 2) steps

/-- **Ten to the power `n`**, by repeated squaring. -/
def tenTo (n : Nat) : Extended :=
  powerFrom (ofNat 10) (ofNat 1) n (Nat.log2 n + 1)

end Extended

end Clearance
