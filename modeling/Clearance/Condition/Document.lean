import Clearance.Ability.Basic
import Clearance.Document.Access
import Clearance.Document.Display
import Clearance.Rule.Tree

/-!
# Conditions, rules and trees as documents

A condition is written as an object with one member, whose name says what kind of
condition it is. Sets are written in ascending order: identifiers and texts as
they are, other operands by their plain form. Conditions can be read back; two
further names stand for the conjunction and the disjunction that leave a single
part as it is.
-/

namespace Clearance

/-! ### Writing -/

namespace Operand

/-- The document of an operand. -/
def document : Operand → Value
  | .id key => .ofId key
  | .value plain => plain

/-- The text that an operand is sorted by. -/
def sortKey : Operand → String
  | .id key => key.text
  | .value plain => plain.plain

/-- An operand put into an ascending list. -/
def insertSorted (operand : Operand) : List Operand → List Operand
  | [] => [operand]
  | other :: rest =>
    if other.sortKey < operand.sortKey then other :: insertSorted operand rest
    else operand :: other :: rest

/-- The document of a set of operands. -/
def setDocument (operands : List Operand) : Value :=
  .list (((distinct operands).foldr insertSorted []).map document)

end Operand

/-- An object with one member. -/
def Value.tagged (name : String) (value : Value) : Value :=
  .object [(name, value)]

namespace Condition

mutual

/-- The **document of a condition**. -/
def document : Condition → Value
  | always truth => .tagged "always" (.flag truth)
  | allOf parts => .tagged "all" (.list (documents parts))
  | anyOf parts => .tagged "any" (.list (documents parts))
  | not part => .tagged "not" (document part)
  | fieldEquals field operand => .tagged "field_equals" (.list [.text field, operand.document])
  | fieldIn field operands =>
    .tagged "field_in" (.list [.text field, Operand.setDocument operands])
  | relatedIn relationship ids => .tagged "related_in" (.list [.text relationship, .ofIds ids])
  | granted type roleIds openWhenEmpty =>
    .tagged "granted" (.object [("type", .text type), ("roles", .ofIds roleIds),
      ("open", .flag openWhenEmpty)])
  | dataField field operator values =>
    .tagged "attribute" (.object [("field", .text field), ("operator", .text operator.name),
      ("values", .ofTexts values)])

/-- The documents of a list of conditions. -/
def documents : List Condition → List Value
  | [] => []
  | part :: rest => document part :: documents rest

end

/-- The document of a condition that may be missing. -/
def document? (condition : Option Condition) : Value :=
  (condition.map document).getD .null

/-! ### Reading -/

/-- Why a document stands for no condition. -/
inductive ReadError
  /-- What should be an identifier spells none. -/
  | id (error : Uuid.ReadError)
  /-- The document is of another shape. -/
  | fault (fault : Fault)

/-- The identifier that a document spells. -/
def readId : Value → Except ReadError Uuid
  | .text text => (Uuid.read text).mapError .id
  | .null => .error (.fault .wrongShape)
  | _ => .error (.fault .missingAttribute)

/-- The operand that a document stands for: an object that names an identifier is
that identifier. -/
def readOperand : Value → Except ReadError Operand
  | .object [("$uuid", key)] => (readId key).map .id
  | value => .ok (.value value)

/-- The leaf that a document of a kind stands for. -/
def readLeaf (kind : String) (body : Value) : Except ReadError Condition :=
  match kind, body.asItems with
  | "always", _ => .ok (.always body.isTrue)
  | "field_equals", [field, value] => (readOperand value).map (.fieldEquals field.asText)
  | "field_in", [field, values] => do
    let operands ← values.asItems.mapM readOperand
    if operands.all Operand.isAtom then return .fieldIn field.asText (Operand.distinct operands)
    else throw (.fault .wrongShape)
  | "related_in", [relationship, ids] =>
    (ids.asItems.mapM readId).map (.relatedIn relationship.asText)
  | "granted", _ =>
    ((body.get "roles").asItems.mapM readId).map fun roleIds =>
      .granted (body.get "type").asText roleIds (body.get "open").isTrue
  | "attribute", _ =>
    match Operator.ofName? (body.get "operator").asText with
    | some operator =>
      .ok (.dataField (body.get "field").asText operator (body.get "values").asTexts)
    | none => .error (.fault .missingKey)
  | _, _ => .error (.fault .missingKey)

mutual

/-- The **condition** that a document stands for. -/
def ofDocument : Value → Except ReadError Condition
  | .object members => ofMembers members
  | _ => .error (.fault .missingKey)

/-- The condition that the first member of an object stands for. -/
def ofMembers : List (String × Value) → Except ReadError Condition
  | [] => .error (.fault .missingKey)
  | (kind, body) :: _ => ofBody kind body

/-- The condition of a kind that a document stands for. -/
def ofBody (kind : String) : Value → Except ReadError Condition
  | .list items =>
    if kind = "all" then (ofItems items).map .allOf
    else if kind = "any" then (ofItems items).map .anyOf
    else if kind = "all_of" then (ofItems items).map .all
    else if kind = "any_of" then (ofItems items).map .any
    else readLeaf kind (.list items)
  | .object members =>
    if kind = "not" then (ofMembers members).map .not else readLeaf kind (.object members)
  | body => readLeaf kind body

/-- The conditions that a list of documents stand for. -/
def ofItems : List Value → Except ReadError (List Condition)
  | [] => .ok []
  | item :: rest => do
    let condition ← ofDocument item
    let conditions ← ofItems rest
    return condition :: conditions

end

end Condition

/-! ### Rules and trees -/

/-- The words of a rule without its condition. -/
def Rule.text (rule : Rule) : String :=
  let verb := if rule.inverted then "cannot" else "can"
  s!"{verb} {rule.action.name} {rule.kind.name}"

/-- The document of a rule. -/
def Rule.document (rule : Rule) : Value :=
  .object [("rule", .text rule.text), ("when", Condition.document? rule.condition)]

/-- The document of a list of rules. -/
def Rule.documents (rules : List Rule) : Value :=
  .list (rules.map Rule.document)

namespace RuleTree

mutual

/-- The document of a rule tree that has been read. -/
def document : RuleTree → Value
  | combine logic parts =>
    .object [("logic", .text logic.name), ("rules", .list (documents parts))]
  | compare category field operator =>
    .object [("category", .ofId category), ("field", .text field),
      ("operator", .text operator.name), ("negated", .flag operator.negated)]
  | share ids => .object [("groups", .ofIds ids)]

/-- The documents of a list of rule trees. -/
def documents : List RuleTree → List Value
  | [] => []
  | part :: rest => document part :: documents rest

end

end RuleTree

end Clearance
