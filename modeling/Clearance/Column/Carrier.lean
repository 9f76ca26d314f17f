import Clearance.Column.Stored
import Clearance.Document.Display
import Clearance.Entity.Cell
import Clearance.Error
import Clearance.Identifier.Reading

/-!
# Handing operands to a column

What a column is compared with is handed over by a **carrier**. A column of
identifiers has its own, for every operand. Any other column leaves the choice to
the operand: each kind of plain value has a carrier, and what has none is carried
as the column itself stores it. Several operands share the carrier that is chosen
for the first of them.

An operand can be refused twice. A carrier refuses what it cannot turn into its
form, and the store refuses integers of more than 64 bits and values that are not
plain. The affinity of the column is applied to what has been handed over.
-/

namespace Clearance

/-- The affinity of a column. Columns of documents and of truth values prefer
numbers. -/
def Column.affinity : Column → Affinity
  | .flag | .document => .numbers
  | _ => .texts

/-- A way of **handing over** operands. -/
inductive Carrier
  /-- Identifiers in their written form. -/
  | identifier
  /-- Identifiers as bare digits. -/
  | digits
  /-- Floating-point numbers. -/
  | number
  /-- Truth values as numbers. -/
  | truth
  /-- Plain values as they are. -/
  | plain
  /-- Documents in their written form. -/
  | written
deriving DecidableEq, Repr

/-- The carrier that a column itself stores values with. -/
def Column.carrier : Column → Carrier
  | .id => .identifier
  | .flag => .truth
  | .document => .written
  | _ => .plain

/-- The carrier of a column for an operand. -/
def Carrier.choose (column : Column) (operand : Operand) : Carrier :=
  if column = .id then .identifier
  else
    match operand with
    | .id _ => .digits
    | .value (.text _) | .value (.integer _) => .plain
    | .value (.real _) => .number
    | .value (.flag _) => .truth
    | .value .null | .value (.list _) | .value (.object _) => column.carrier

namespace Carrier

/-- An operand as the written form of an identifier. -/
def asIdentifier : Operand → Except Fault Stored
  | .id id => .ok (.text id.text)
  | .value .null => .ok .empty
  | .value value =>
    match Uuid.read? value.plain with
    | some id => .ok (.text id.text)
    | none => .error .unstorable

/-- An operand as the digits of an identifier. A floating-point number has digits of
its own, which the store refuses. -/
def asDigits : Operand → Except Fault Stored
  | .id id => .ok (.text (String.ofList (Text.hexDigits 32 id.number)))
  | .value .null => .ok .empty
  | .value (.real _) => .error .unbindable
  | .value _ => .error .unstorable

/-- An operand as a floating-point number. -/
def asNumber : Operand → Except Fault Stored
  | .value .null => .ok .empty
  | .value (.real value) => .ok (.real value)
  | .value (.flag flag) => .ok (.real (.ofDecimal false (if flag then 1 else 0) 0))
  | .value (.integer value) =>
    match Binary64.ofDecimal (value < 0) value.natAbs 0 with
    | .infinite _ => .error .unstorable
    | value => .ok (.real value)
  | _ => .error .unstorable

/-- An operand as a truth value; the numbers one and zero are truth values. -/
def asTruth : Operand → Except Fault Stored
  | .value .null => .ok .empty
  | .value value =>
    if (Value.flag true).same value then .ok (.ofFlag true)
    else if (Value.flag false).same value then .ok (.ofFlag false)
    else .error .unstorable
  | .id _ => .error .unstorable

/-- An operand as it is. -/
def asPlain : Operand → Except Fault Stored
  | .value .null => .ok .empty
  | .value (.text text) => .ok (.text text)
  | .value (.flag flag) => .ok (.ofFlag flag)
  | .value (.real value) => .ok (.real value)
  | .value (.integer value) => if Stored.fits value then .ok (.integer value) else .error .tooLarge
  | .value (.list _) | .value (.object _) | .id _ => .error .unbindable

/-- An operand as a written document. -/
def asWritten : Operand → Except Fault Stored
  | .value value => .ok (.text value.written)
  | .id _ => .error .unstorable

/-- An operand **handed over** by a carrier. -/
def hand : Carrier → Operand → Except Fault Stored
  | .identifier => asIdentifier
  | .digits => asDigits
  | .number => asNumber
  | .truth => asTruth
  | .plain => asPlain
  | .written => asWritten

end Carrier

/-! ### Operands in a column -/

namespace Column

/-- An operand in the form in which a column is compared with it, by the carrier
given. -/
def takeBy (column : Column) (carrier : Carrier) (operand : Operand) : Except Fault Stored :=
  (carrier.hand operand).map column.affinity.bring

/-- An operand in the form in which a column is compared with it. A truth value needs
no carrier, unless the column holds identifiers. -/
def take (column : Column) (operand : Operand) : Except Fault Stored :=
  match column, operand with
  | .id, operand => column.takeBy .identifier operand
  | column, .value (.flag isSet) => .ok (column.affinity.bring (.ofFlag isSet))
  | column, operand => column.takeBy (Carrier.choose column operand) operand

/-- Several operands in the form in which a column is compared with them. -/
def takeAll (column : Column) : List Operand → List (Except Fault Stored)
  | [] => []
  | first :: rest =>
    (first :: rest).map (column.takeBy (Carrier.choose column first))

/-- A plain value as a column **stores** it. -/
def store (column : Column) (value : Value) : Except Fault Stored :=
  column.takeBy column.carrier (.value value)

/-- A plain value as it **comes back** from the column that has stored it. -/
def reload (column : Column) (value : Value) : Except Fault Value :=
  match column with
  | .text | .flag =>
    (column.store value).map fun stored =>
      match stored with
      | Stored.text spelling => Value.text spelling
      | Stored.integer number => Value.flag (number != 0)
      | _ => Value.null
  | .document => .ok value.reloaded
  | .id | .related | .parts | .loaded => .ok value

end Column

/-! ### Cells -/

/-- A cell as its column **stores** it. A bare number in a column of documents is the one
that has come back from there. Relationships are stored in rows of their own. -/
def Cell.stored : Cell → Stored
  | .id key => .text key.text
  | .content .document (.integer number) => .integer number
  | .content .document (.real number) => .ofReal number
  | .content column document => ((column.store document).toOption).getD .empty
  | .null | .related _ | .parts _ | .loaded => .empty

end Clearance
