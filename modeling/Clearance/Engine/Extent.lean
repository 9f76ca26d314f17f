import Clearance.Condition.Filter

/-!
# The extent of a filter

An engine may read a written filter symbol by symbol and keep what it has not finished on a
stack of bounded size; what it has read is a tree of bounded height. A filter that goes
beyond either bound is refused as a whole, whatever the rows. How large the bounds are is up to
the engine (`Clearance.Engine.Bounds`).

`Clearance.Filter.symbols` is the most symbols that lie on the stack at one time while a
filter is read, and `Clearance.Filter.height` the height of the tree. A chain of parts is
read from the left: while a later part is read, all the parts before it are one finished
symbol, followed by the sign that joins them. So long chains make high trees, and chains
within the last part of chains make high stacks.
-/

namespace Clearance.Filter

/-! ### Symbols -/

/-- A number of operands in brackets: one is nothing but itself, a later one comes after
what has been read and a comma. -/
def operandSymbols (count : Nat) : Nat :=
  if count ≤ 1 then 1 else 3

/-- The symbols of a comparison of a column with some operands: the column, the sign, a
bracket, the operands, and the closing bracket of a single one. -/
def amongSymbols (count : Nat) : Nat :=
  if count ≤ 1 then 5 else 3 + operandSymbols count

/-- The symbols before the condition of a search among other rows. -/
def innerSearchSymbols : Nat := 7

/-- The symbols of a test for related rows with one of some identifiers. -/
def relatedSymbols (count : Nat) : Nat :=
  innerSearchSymbols + 2 + amongSymbols count

/-- The symbols of a test that looks into a document: a call with two arguments. -/
def memberSymbols : Nat := 6

/-- Whether a part of a chain stands in brackets: a search among other rows always does,
and so does a disjunction in a conjunction. -/
def isBracketed (inConjunction : Bool) : Filter → Bool
  | any _ => inConjunction
  | relatedExists .. | grantExists .. => true
  | _ => false

mutual

/-- The **symbols** on the stack when a filter takes the most. -/
def symbols : Filter → Nat
  | constant _ | settled _ | absent _ | equals .. => 3
  | present _ => 4
  | among _ operands => amongSymbols operands.length
  | refused count _ => if count ≤ 1 then 3 else amongSymbols count
  | relatedExists _ ids => relatedSymbols ids.length
  | grantExists _ none => innerSearchSymbols + 5
  | grantExists _ (some roleIds) => relatedSymbols roleIds.length
  | memberPresent _ | memberAmong .. => memberSymbols
  | memberIsText _ | memberLike .. => memberSymbols + 3
  | not (memberAmong ..) => 1 + memberSymbols
  | not (memberLike ..) => memberSymbols + 3
  | not part => 2 + symbols part
  | all parts => chainSymbols true 0 parts
  | any parts => chainSymbols false 0 parts

/-- The symbols of the parts of a chain, of which the first comes after `before` others. -/
def chainSymbols (inConjunction : Bool) (before : Nat) : List Filter → Nat
  | [] => 0
  | part :: rest =>
    max (before + (if isBracketed inConjunction part then 1 else 0) + symbols part)
      (chainSymbols inConjunction 2 rest)

end

/-- The symbols before the filter of a search. -/
def searchSymbols : Nat := 5

/-! ### Height -/

/-- Whether the rows of a relationship belong to one object alone, so that they name it
themselves. -/
def isOwned (relationship : String) : Bool :=
  relationship == "grants" || relationship == "position_attributes"

/-- The height of the condition of a search among other rows. -/
def innerHeight : Filter → Nat
  | relatedExists relationship _ => if isOwned relationship then 4 else 5
  | grantExists _ none => 4
  | grantExists _ (some _) => 5
  | _ => 0

mutual

/-- The **height** of the tree of a filter. -/
def height : Filter → Nat
  | constant _ | settled _ => 2
  | present _ | absent _ | equals .. | among .. | refused .. => 3
  | memberPresent _ | memberAmong .. => 4
  | memberLike .. => 5
  | memberIsText _ => 6
  | not part => height part + 1
  | all [] | any [] => 2
  | all (first :: rest) | any (first :: rest) => chainHeight (height first) rest
  | filter => innerHeight filter + 1

/-- The height of a chain, of which the parts so far are a tree of some height. -/
def chainHeight (before : Nat) : List Filter → Nat
  | [] => before
  | part :: rest => chainHeight (max before (height part) + 1) rest

end

mutual

/-- The greatest height of the condition of a search among other rows within a filter. -/
def deepestInner : Filter → Nat
  | not part => deepestInner part
  | all parts | any parts => deepestInnerOf parts
  | filter => innerHeight filter

/-- The greatest height of the condition of a search among other rows within some filters. -/
def deepestInnerOf : List Filter → Nat
  | [] => 0
  | part :: rest => max (deepestInner part) (deepestInnerOf rest)

end

end Clearance.Filter

namespace Clearance.Engine

/-! ### Bounds -/

/-- The **bounds** of an engine. -/
structure Bounds where
  /-- The most symbols that it keeps on its stack. -/
  symbols : Nat
  /-- The greatest height of a tree that it reads. The condition of a search among other rows
  counts on top of the filter. -/
  height : Nat
  /-- The longest pattern that it compares texts with, in bytes. -/
  pattern : Nat

/-- Whether a filter **exceeds** the bounds of an engine. -/
def Bounds.isExceededBy (bounds : Bounds) (filter : Filter) : Bool :=
  bounds.symbols < Filter.searchSymbols + filter.symbols ||
    bounds.height < filter.height + filter.deepestInner

end Clearance.Engine
