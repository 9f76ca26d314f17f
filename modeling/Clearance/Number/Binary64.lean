/-!
# Binary floating-point numbers

A **binary64** number is a sign, a significand below `2 ^ 53` and an exponent:
it stands for `significand * 2 ^ exponent`. The significand is as large as the
exponent allows, so two finite numbers of one sign are equal only if their parts
are. Nothing here is machine arithmetic: reading a decimal rounds a quotient of
natural numbers, and comparing with an integer is exact.
-/

-- Powers are those of the core library, whatever other powers a reader of this project has
-- in scope.
attribute [instance (20000), default_instance 20000] instPowNat

namespace Clearance

/-- A **binary64** number: a signed multiple of a power of two, or an infinity. -/
inductive Binary64
  /-- The number `significand * 2 ^ exponent`, or its negative. -/
  | finite (negative : Bool) (significand : Nat) (exponent : Int)
  /-- What is too large to have a significand. -/
  | infinite (negative : Bool)
deriving DecidableEq, Repr, Inhabited

namespace Number

/-! ### Rounding a quotient -/

/-- The natural number nearest to `num / den`; a half goes to the even neighbour. -/
def roundHalfEven (num den : Nat) : Nat :=
  let quotient := num / den
  let rest := num % den
  if 2 * rest < den then quotient
  else if den < 2 * rest then quotient + 1
  else if quotient % 2 = 0 then quotient
  else quotient + 1

/-- The quotient `num / den` divided by `2 ^ exponent`, as a quotient again. -/
def scaled (num den : Nat) (exponent : Int) : Nat × Nat :=
  if 0 ≤ exponent then (num, den * 2 ^ exponent.toNat) else (num * 2 ^ (-exponent).toNat, den)

end Number

namespace Binary64

open Number

/-! ### Reading a decimal -/

/-- The least exponent a number can have. -/
def minExponent : Int := -1074

/-- The largest exponent a finite number can have. -/
def maxExponent : Int := 971

/-- The number nearest to `num / den`, with a sign. -/
def ofRatio (negative : Bool) (num den : Nat) : Binary64 :=
  if num = 0 then .finite negative 0 minExponent
  else
    let estimate : Int := max ((Nat.log2 num : Int) - Nat.log2 den - 52) minExponent
    let trial := scaled num den estimate
    let exponent :=
      if trial.1 / trial.2 < 2 ^ 52 ∧ minExponent < estimate then estimate - 1 else estimate
    let exact := scaled num den exponent
    let significand := roundHalfEven exact.1 exact.2
    let carried := significand = 2 ^ 53
    let final := if carried then exponent + 1 else exponent
    if maxExponent < final then .infinite negative
    else .finite negative (if carried then 2 ^ 52 else significand) final

/-- The number of decimal digits of `n`; zero has one. -/
def decimalLength (n : Nat) : Nat :=
  (Nat.toDigits 10 n).length

/-- The number nearest to `digits * 10 ^ exponent`. Beyond the range of the
format the answer is known without computing the power. -/
def ofDecimal (negative : Bool) (digits : Nat) (exponent : Int) : Binary64 :=
  if digits = 0 then .finite negative 0 minExponent
  else if 400 < (decimalLength digits : Int) + exponent then .infinite negative
  else if (decimalLength digits : Int) + exponent < -400 then .finite negative 0 minExponent
  else if 0 ≤ exponent then ofRatio negative (digits * 10 ^ exponent.toNat) 1
  else ofRatio negative digits (10 ^ (-exponent).toNat)

/-! ### Exact values -/

/-- The absolute value of a finite number, as a quotient. -/
def ratio (significand : Nat) (exponent : Int) : Nat × Nat :=
  if 0 ≤ exponent then (significand * 2 ^ exponent.toNat, 1)
  else (significand, 2 ^ (-exponent).toNat)

/-- The integer that `x` is, if it is one. -/
def toInt? : Binary64 → Option Int
  | .finite negative significand exponent =>
    let value := ratio significand exponent
    if value.1 % value.2 = 0 then
      let whole : Int := (value.1 / value.2 : Nat)
      some (if negative then -whole else whole)
    else none
  | .infinite _ => none

/-- The integer between zero and `x` that is nearest to `x`. -/
def truncate? : Binary64 → Option Int
  | .finite negative significand exponent =>
    let value := ratio significand exponent
    let whole : Int := (value.1 / value.2 : Nat)
    some (if negative then -whole else whole)
  | .infinite _ => none

/-- Whether two numbers are equal; the two zeros are. -/
def same : Binary64 → Binary64 → Bool
  | .finite n s e, .finite n' s' e' => (s == 0 && s' == 0) || (n == n' && s == s' && e == e')
  | .infinite n, .infinite n' => n == n'
  | _, _ => false

/-- Whether `x` is a zero of either sign. -/
def isZero : Binary64 → Bool
  | .finite _ significand _ => significand == 0
  | .infinite _ => false

end Binary64

end Clearance
