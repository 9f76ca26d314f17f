import Clearance.Condition.Filter
import Clearance.Number.Magnitude

/-!
# The effort of locating rows

An engine need not look at all rows: by a part of a conjunction that compares a column of
identifiers it **locates** rows through an index, and by a disjunction if each of its parts
locates rows. Which part is taken is a matter of the estimated **effort**
(`Clearance.Filter.Effort`), told in magnitudes.

The rows are wanted in ascending order of their identifiers. Rows that are not located in
that order are sorted, which is an effort of its own (`Clearance.Filter.sortingWork`).
-/

namespace Clearance.Filter

/-! ### What a filter looks at -/

/-- The columns that hold something in every row. -/
def filledColumns : List String :=
  ["id", "kind", "name", "status", "core", "fields", "data", "archived", "title", "username",
    "action"]

mutual

/-- Whether a filter is the **same for all rows**. -/
def isFixed : Filter → Bool
  | constant _ | settled _ => true
  | present column | absent column => filledColumns.contains column
  | not part => isFixed part
  | all parts | any parts => areFixed parts
  | _ => false

/-- Whether some filters are the same for all rows. -/
def areFixed : List Filter → Bool
  | [] => true
  | part :: rest => isFixed part && areFixed rest

end

mutual

/-- Whether a filter **searches among other rows**. -/
def looksElsewhere : Filter → Bool
  | relatedExists .. | grantExists .. => true
  | not part => looksElsewhere part
  | all parts | any parts => lookElsewhere parts
  | _ => false

/-- Whether one of some filters searches among other rows. -/
def lookElsewhere : List Filter → Bool
  | [] => false
  | part :: rest => looksElsewhere part || lookElsewhere rest

end

mutual

/-- Whether a filter looks at no column of a row but this one. -/
def isAbout (column : String) : Filter → Bool
  | constant _ | settled _ => true
  | present other | absent other => other == column || filledColumns.contains other
  | equals other _ | among other _ => other == column
  | not part => isAbout column part
  | all parts | any parts => areAbout column parts
  | _ => false

/-- Whether some filters look at no column of a row but this one. -/
def areAbout (column : String) : List Filter → Bool
  | [] => true
  | part :: rest => isAbout column part && areAbout column rest

end

/-- The column that a filter compares with something. -/
def comparedColumn? : Filter → Option String
  | equals column _ | among column _ => some column
  | absent column => if filledColumns.contains column then none else some column
  | _ => none

/-- Whether a filter asks for one identifier of the row itself. -/
def identifies : Filter → Bool
  | equals column _ | among column [_] => column == "id"
  | _ => false

/-- How many parts of a conjunction depend on the row, besides one of them. -/
def companions (parts : List Filter) : Nat :=
  parts.countP (!isFixed ·) - 1

/-! ### Effort -/

/-- The estimated **effort** of locating rows. -/
structure Effort where
  /-- How much work it is. -/
  work : Magnitude
  /-- How many rows will be found. -/
  rows : Magnitude

namespace Effort

/-- Looking up a row by its own identifier. -/
def ofRow : Effort := ⟨47, 0⟩

/-- Looking up the rows with another identifier in a column: some ten of them. -/
def ofColumn : Effort := ⟨62, 33⟩

/-- Looking up the rows that have no identifier in a column: twice as many. -/
def ofEmpty : Effort := ⟨70, 43⟩

/-- The effort of `count` such lookups. -/
def times (effort : Effort) (count : Nat) : Effort :=
  ⟨effort.work + .ofNat count, effort.rows + .ofNat count⟩

/-- The effort when so many other parts of the conjunction leave out some of the rows. -/
def beside (effort : Effort) (others : Nat) : Effort :=
  { effort with rows := effort.rows - others }

/-- The effort of both. -/
def plus (a b : Effort) : Effort :=
  ⟨a.work.ofSum b.work, a.rows.ofSum b.rows⟩

/-- The lesser effort: less work, or as much for fewer rows. -/
def lesser? : (a b : Option Effort) → Option Effort
  | some a, some b =>
    some (if b.work < a.work ∨ (b.work = a.work ∧ b.rows < a.rows) then b else a)
  | some a, none => some a
  | none, b => b

end Effort

/-- The effort of a lookup in a column of a kind, if there is an index for it. -/
def lookupEffort (kind : Kind) (column : String) : Option Effort :=
  if kind.column? column = some .id then some (if column = "id" then .ofRow else .ofColumn)
  else none

mutual

/-- The effort of **locating** rows by a part of a conjunction with `others` others, if
that can be done. -/
def effort? (kind : Kind) (others : Nat) : Filter → Option Effort
  | equals column _ => (lookupEffort kind column).map (·.beside others)
  | among column operands =>
    (lookupEffort kind column).map fun effort =>
      (effort.times operands.length).beside others
  | absent column =>
    if filledColumns.contains column then none
    else (lookupEffort kind column).map fun _ => Effort.ofEmpty.beside others
  | all parts => leastEffort? kind (companions parts) parts
  | any parts =>
    if parts.all fun disjunct => disjunct.conjuncts.any (·.comparedColumn?.isSome) then
      (sumOfEfforts? kind parts).map fun sum => { sum with work := sum.work + 1 }
    else none
  | _ => none

/-- The least effort of locating rows by one of some parts with `others` others. -/
def leastEffort? (kind : Kind) (others : Nat) : List Filter → Option Effort
  | [] => none
  | part :: rest => Effort.lesser? (effort? kind others part) (leastEffort? kind others rest)

/-- The effort of locating rows by each of some filters. -/
def sumOfEfforts? (kind : Kind) : List Filter → Option Effort
  | [] => none
  | [part] => effort? kind 0 part
  | part :: rest =>
    match effort? kind 0 part, sumOfEfforts? kind rest with
    | some first, some others => some (first.plus others)
    | _, _ => none

end

/-! ### Locators -/

/-- A **locator**: a part of a conjunction that locates rows. -/
structure Locator where
  /-- The place in the conjunction. -/
  place : Nat
  /-- The part. -/
  part : Filter
  /-- The effort. -/
  effort : Effort

namespace Locator

/-- Whether the rows are located in ascending order of their identifiers. -/
def isInOrder (locator : Locator) : Bool :=
  locator.part.comparedColumn? == some "id"

/-- The place of the column among those of the kind, if the rows are located by one. -/
def rank (kind : Kind) (locator : Locator) : Nat :=
  match locator.part.comparedColumn? with
  | some column => (kind.columns.map (·.1)).idxOf column + 1
  | none => 0

/-- The work of locating rows, and of sorting them if that is wanted. -/
def work (sorting : Option Magnitude) (locator : Locator) : Magnitude :=
  match sorting with
  | some sorting =>
    if locator.isInOrder then locator.effort.work else locator.effort.work.ofSum sorting + 5
  | none => locator.effort.work

/-- The better one of two locators: less work, or as much for fewer rows, or else the one
with the later column. -/
def better (kind : Kind) (sorting : Option Magnitude) (a b : Locator) : Locator :=
  let (x, y) := (a.work sorting, b.work sorting)
  if y < x ∨ (y = x ∧ (b.effort.rows < a.effort.rows ∨
      (b.effort.rows = a.effort.rows ∧ a.rank kind < b.rank kind))) then b
  else a

/-- The best of some locators. -/
def best? (kind : Kind) (sorting : Option Magnitude) : List Locator → Option Locator
  | [] => none
  | first :: rest => some (rest.foldl (better kind sorting) first)

end Locator

/-- The work of sorting some rows. -/
def sortingWork (rows : Magnitude) : Magnitude :=
  rows + 16 + rows.ofLogarithm

/-- The locators of a conjunction. -/
def locators (kind : Kind) (parts : List Filter) : List Locator :=
  parts.zipIdx.filterMap fun (part, place) =>
    (effort? kind (companions parts) part).map fun effort => { place, part, effort }

/-- The part of a conjunction that **locates the rows**, if there is one. One identifier of
the row itself is as good as can be; otherwise the rows are sorted if they are `wanted` in
order. -/
def locator? (kind : Kind) (wanted : Bool) (parts : List Filter) : Option Locator :=
  let found := locators kind parts
  let least := Locator.best? kind none found
  if wanted then
    found.find? (·.part.identifies) <|>
      least.bind fun least =>
        Locator.best? kind (some (sortingWork (max 0 least.effort.rows + 1))) found
  else least

end Clearance.Filter
