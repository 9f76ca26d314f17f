/-!
# Magnitudes

Where an estimate is all that is wanted, a number is as well told by its **magnitude**: ten
times its binary logarithm. The magnitude of a product is the sum of the magnitudes, and
that of a sum is the larger one and a little more, which depends on the difference alone
(`Clearance.Magnitude.ofSum`).
-/

namespace Clearance

/-- A **magnitude**: ten times the binary logarithm of a number, in whole units. -/
abbrev Magnitude := Int

namespace Magnitude

/-- Ten times the binary logarithm of one and some eighths. -/
def ofEighths : List Int := [0, 2, 3, 5, 6, 7, 8, 9]

/-- The magnitude of a natural number, of which the first four bits are looked at. -/
def ofNat (n : Nat) : Magnitude :=
  let bits := Nat.log2 n
  10 * (bits : Int) + ofEighths.getD (8 * n / 2 ^ bits % 8) 0

/-- The differences from which on a smaller number adds one unit less to a larger one. -/
def sumBounds : List Int := [2, 4, 6, 9, 12, 15, 19, 25, 32, 50]

/-- The magnitude of the **sum** of two numbers. -/
def ofSum (a b : Magnitude) : Magnitude :=
  max a b + (sumBounds.countP (max a b - min a b < ·) : Nat)

/-- The magnitude of the **logarithm** of a number; no logarithm is less than one. -/
def ofLogarithm (a : Magnitude) : Magnitude :=
  if a ≤ 10 then 0 else ofNat a.toNat - ofNat 10

/-- The order of the numbers does not matter to their sum. -/
theorem ofSum_comm (a b : Magnitude) : ofSum a b = ofSum b a := by
  unfold ofSum
  rw [Int.max_comm, Int.min_comm]

end Magnitude

end Clearance
