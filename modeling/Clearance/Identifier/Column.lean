import Clearance.Document.Display
import Clearance.Document.Operand
import Clearance.Identifier.Reading

/-!
# Columns of identifiers

A database stores identifiers in a column of their own type if it has one, and as
their written form otherwise. What is put into such a column is brought into one
form: an identifier, or what can be read as one, is stored as the same thing
however it was spelled, and what is read back is always an identifier. Nothing
stays nothing.
-/

namespace Clearance

/-- How a database stores identifiers. -/
inductive IdColumn
  /-- In a type of their own. -/
  | native
  /-- As their written form. -/
  | written
deriving DecidableEq, Repr

namespace IdColumn

/-- The column of a database by the name of its dialect. -/
def ofDialect (dialect : String) : IdColumn :=
  if ["postgresql", "postgres"].contains dialect then native else written

/-- The name of the type of a column. -/
def typeName : IdColumn → String
  | native => "PGUuid"
  | written => "CHAR"

/-- The identifier that an operand other than nothing is or spells. -/
def denoted : Operand → Except Uuid.ReadError Uuid
  | .id key => .ok key
  | .value value => Uuid.read value.plain

/-- What is **stored** for an operand. -/
def store (column : IdColumn) (operand : Operand) : Except Uuid.ReadError Operand :=
  match operand with
  | .value .null => .ok (.value .null)
  | operand =>
    (denoted operand).map fun key =>
      match column with
      | native => .id key
      | written => .value (.text key.text)

/-- What is **read back** for a stored operand. -/
def load (operand : Operand) : Except Uuid.ReadError (Option Uuid) :=
  match operand with
  | .value .null => .ok none
  | operand => (denoted operand).map some

end IdColumn

/-- The identifier that an operand is: an identifier or a text that spells one. -/
def Uuid.coerce : Operand → Except Uuid.ReadError Uuid
  | .id key => .ok key
  | .value (.text text) => Uuid.read text
  | .value value => .error (.notText value.typeName)

end Clearance
