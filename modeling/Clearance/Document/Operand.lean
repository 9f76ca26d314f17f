import Clearance.Document.Value
import Clearance.Identifier.Basic

/-!
# Operands

An **operand** is what a stored cell is compared with or what is put into a column
of identifiers: an identifier, or a plain document. An identifier is never equal
to a text, not even to its own.
-/

namespace Clearance

/-- An **operand**: an identifier or a plain value. -/
inductive Operand
  /-- An identifier. -/
  | id (id : Uuid)
  /-- A plain value. -/
  | value (value : Value)

namespace Operand

/-- The operand that is an object's identifier; without one, nothing. -/
def ofId : Option Uuid → Operand
  | some key => .id key
  | none => .value .null

/-- Whether two operands are the same. -/
def same : Operand → Operand → Bool
  | .id a, .id b => a == b
  | .value a, .value b => a.same b
  | _, _ => false

/-- Whether an operand can be an element of a set. -/
def isAtom : Operand → Bool
  | .id _ => true
  | .value plain => plain.isAtom

/-- The operands of a list, of several that are the same only the first. -/
def distinct (operands : List Operand) : List Operand :=
  operands.foldl (fun kept operand => if kept.any operand.same then kept else kept ++ [operand]) []

end Operand

end Clearance
