import Clearance.Engine.Basic
import Clearance.Engine.Effort
import Clearance.Engine.Extent

/-!
# Searching with a filter

A row may hold a document that cannot be looked into, and then the part of a filter that
looks into it has a **fault** instead of an answer. Whether that part is evaluated at all
depends on the way in which an engine searches. This is one way
(`Clearance.Engine.planning`), which follows a plan of least effort.

Within a part of a filter everything goes from the left until it is decided
(`Clearance.Filter.meets`). The outermost conjunction is taken in another order: first the
parts that are the same for all rows, then the part by which the rows are *located*
(`Clearance.Filter.locator?`), then the parts that the same index answers, then the others
from the left, and at last those that search among other rows (`Clearance.Filter.Stage`).

A disjunction that locates the rows is a search for each of its parts, also after one that
has accepted the row. The other comparisons of the conjunction, and its other disjunctions
unless they search among other rows, go along with each of these searches
(`Clearance.Filter.alongside`). A column that the outermost conjunction compares with an
operand is known everywhere else in it (`Clearance.Filter.withKnown`).

All of this decides only about faults. Which rows are selected is told by
`Clearance.Filter.selects`.
-/

namespace Clearance.Filter

/-! ### Faults of leaves -/

/-- Why a document cannot be searched for a field. -/
def searchFault? (data : Value) (field : String) : Option Fault :=
  if data.hasInfinity || (Path.ofField field).isBlocked data then some .unsearchable else none

/-- The truth value of a leaf about a field, unless the data cannot be searched. -/
def searched (data : Value) (field : String) (answer : Truth) : Except Fault Truth :=
  match searchFault? data field with
  | some fault => .error fault
  | none => .ok answer

/-- The truth value of a leaf with a pattern, unless the pattern has more than `longest` bytes. -/
def compared (longest : Nat) (pattern : List Char) (answer : Except Fault Truth) :
    Except Fault Truth :=
  if longest < (String.ofList pattern).utf8ByteSize then .error .unsearchable else answer

/-! ### From the left -/

mutual

/-- The truth value of a filter on the row of an object, or the first **fault** met while
its parts are evaluated from the left until one decides. -/
def meets (longest : Nat) (entity : Entity) : Filter → Except Fault Truth
  | all parts => meetsAll longest entity parts
  | any parts => meetsAny longest entity parts
  | not part => (meets longest entity part).map Truth.not
  | memberPresent field => searched entity.data field (eval entity (memberPresent field))
  | memberIsText field => searched entity.data field (eval entity (memberIsText field))
  | memberAmong field texts => searched entity.data field (eval entity (memberAmong field texts))
  | memberLike field pattern =>
    compared longest pattern (searched entity.data field (eval entity (memberLike field pattern)))
  | filter => .ok (eval entity filter)

/-- The conjunction of a list of filters; a false one decides. -/
def meetsAll (longest : Nat) (entity : Entity) : List Filter → Except Fault Truth
  | [] => .ok (some true)
  | part :: rest =>
    match meets longest entity part with
    | .ok (some false) => .ok (some false)
    | .ok answer => (meetsAll longest entity rest).map answer.and
    | .error fault => .error fault

/-- The disjunction of a list of filters; a true one decides. -/
def meetsAny (longest : Nat) (entity : Entity) : List Filter → Except Fault Truth
  | [] => .ok (some false)
  | part :: rest =>
    match meets longest entity part with
    | .ok (some true) => .ok (some true)
    | .ok answer => (meetsAny longest entity rest).map answer.or
    | .error fault => .error fault

end

/-! ### The order of a conjunction -/

/-- The **stages** of a search, in order. -/
inductive Stage
  /-- What is the same for all rows. -/
  | fixed
  /-- What locates the rows. -/
  | locating
  /-- What the index answers that is used. -/
  | indexed
  /-- What is looked up in the row. -/
  | plain
  /-- What is searched for among other rows. -/
  | elsewhere
deriving DecidableEq, Repr

/-- All stages. -/
def Stage.all : List Stage := [fixed, locating, indexed, plain, elsewhere]

/-- The column whose index is used; without a locator the rows are read in the order of
their identifiers. -/
def indexColumn? : Option Locator → Option String
  | some locator => locator.part.comparedColumn?
  | none => some "id"

/-- The stage of a part of a conjunction. -/
def stage (column : Option String) (isLocator : Bool) (part : Filter) : Stage :=
  if isLocator then .locating
  else if part.isFixed then .fixed
  else if part.looksElsewhere then .elsewhere
  else if column.any part.isAbout then .indexed
  else .plain

/-- The parts of a conjunction in the order of their stages, each with whether it locates
the rows. -/
def inStages (locator : Option Locator) (parts : List Filter) : List (Filter × Bool) :=
  let column := indexColumn? locator
  let marked := parts.zipIdx.map fun (part, place) => (part, locator.any (·.place == place))
  Stage.all.flatMap fun wanted =>
    marked.filter fun (part, isLocator) => stage column isLocator part = wanted

/-- Whether a part of a conjunction is tried along with each part of a disjunction that
locates the rows. -/
def goesAlong : Filter → Bool
  | any parts => !lookElsewhere parts && !areFixed parts
  | part => part.comparedColumn?.isSome

/-- The parts of a conjunction that are tried **along with** its locator. -/
def alongside (locator : Option Locator) (parts : List Filter) : List Filter :=
  (parts.zipIdx.filter fun (part, place) =>
    !locator.any (·.place == place) && part.goesAlong).map (·.1)

/-! ### Searching -/

/-- The conjunction of some answers; the first that is not true decides. -/
def inTurn : List (Except Fault Truth) → Except Fault Truth
  | [] => .ok (some true)
  | .ok (some true) :: rest => inTurn rest
  | .ok _ :: _ => .ok (some false)
  | .error fault :: _ => .error fault

/-- The disjunction of some answers, all of which are wanted. -/
def together : List (Except Fault Truth) → Except Fault Truth
  | [] => .ok (some false)
  | .ok answer :: rest => (together rest).map answer.or
  | .error fault :: _ => .error fault

mutual

/-- The number of **disjunctions** in a filter. -/
def disjunctions : Filter → Nat
  | any parts => disjunctionsIn parts + 1
  | all parts => disjunctionsIn parts
  | not part => disjunctions part
  | _ => 0

/-- The number of disjunctions in some filters. -/
def disjunctionsIn : List Filter → Nat
  | [] => 0
  | part :: rest => disjunctions part + disjunctionsIn rest

end

/-- The answer of a conjunction on the row of an object when rows are located, `wanted` in
order or not, by at most so many disjunctions one within the other. -/
def searchAll (longest : Nat) (entity : Entity) :
    (disjunctions : Nat) → (wanted : Bool) → List Filter → Except Fault Truth
  | 0, _, parts => meetsAll longest entity parts
  | disjunctions + 1, wanted, parts =>
    let locator := locator? entity.kind wanted parts
    let along := alongside locator parts
    inTurn ((inStages locator parts).map fun (part, isLocator) =>
      match part, isLocator with
      | any disjuncts, true =>
        together (disjuncts.map fun disjunct =>
          searchAll longest entity disjunctions false (disjunct.conjuncts ++ along))
      | part, _ => meets longest entity part)

/-- The answer of a filter on the row of an object in a **search**. With every disjunction
that locates rows there is one less among the parts. -/
def search (longest : Nat) (entity : Entity) (filter : Filter) : Except Fault Truth :=
  searchAll longest entity (filter.disjunctions + 1) true filter.conjuncts

/-! ### What is known of all rows -/

mutual

/-- A filter on rows of which a column is known. -/
def knowing (column : String) (value : Stored) : Filter → Filter
  | present other =>
    if other = column then settled (isPresent value) else present other
  | absent other =>
    if other = column then settled (!isPresent value) else absent other
  | equals other operand =>
    if other = column then settled (value.equals operand == some true) else equals other operand
  | among other operands =>
    if other = column then settled (value.among operands == some true) else among other operands
  | not part => not (knowing column value part)
  | all parts => all (knowingEach column value parts)
  | any parts => any (knowingEach column value parts)
  | filter => filter

/-- Some filters on rows of which a column is known. -/
def knowingEach (column : String) (value : Stored) : List Filter → List Filter
  | [] => []
  | part :: rest => knowing column value part :: knowingEach column value rest

end

/-- The column and the operand of a comparison with a single operand. -/
def known? : Filter → Option (String × Stored)
  | equals column operand | among column [operand] => some (column, operand)
  | _ => none

/-- The parts of a conjunction, where what one part says of a column is known in the
others; of several comparisons of a column it is the last. -/
def withKnownFrom (parts : List Filter) (place : Nat) : List Filter :=
  match parts[place]?.bind known? with
  | none => parts
  | some (column, value) =>
    if (parts.drop (place + 1)).any fun other => (known? other).any (·.1 == column) then parts
    else
      parts.zipIdx.map fun (part, other) =>
        if other = place then part else knowing column value part

/-- A filter with what its outermost conjunction says of columns **known** throughout. -/
def withKnown : Filter → Filter
  | all parts => all ((List.range parts.length).foldl withKnownFrom parts)
  | filter => filter

/-- The **fault** that a search meets on the row of an object. -/
def faultOn? (longest : Nat) (filter : Filter) (entity : Entity) : Option Fault :=
  match search longest entity filter with
  | .ok _ => none
  | .error fault => some fault

end Clearance.Filter

namespace Clearance

/-- An engine that **plans** its searches and keeps to some bounds. -/
def Engine.planning (bounds : Bounds) : Engine where
  refusal? filter := if bounds.isExceededBy filter then some .unsearchable else none
  faultOn? filter := filter.withKnown.faultOn? bounds.pattern

end Clearance
