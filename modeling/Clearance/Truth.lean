/-!
# Truth in a store

A store knows three truth values: a comparison with nothing is neither true nor
false but *unknown*. An unknown part leaves a conjunction or disjunction unknown
unless another part decides it, and the negation of the unknown is unknown.
-/

namespace Clearance

/-- A **truth value** of a store; `none` is *unknown*. -/
abbrev Truth := Option Bool

namespace Truth

/-- The negation: the unknown stays unknown. -/
def not (a : Truth) : Truth :=
  a.map Bool.not

/-- The conjunction: false if either is, unknown if it is not decided. -/
def and : Truth → Truth → Truth
  | some false, _ => some false
  | _, some false => some false
  | some true, some true => some true
  | _, _ => none

/-- The disjunction: true if either is, unknown if it is not decided. -/
def or : Truth → Truth → Truth
  | some true, _ => some true
  | _, some true => some true
  | some false, some false => some false
  | _, _ => none

end Truth

end Clearance
