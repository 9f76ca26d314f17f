import Clearance.Identifier.Column

/-!
# The test for text in a database

Whether a member of a stored object is a text is the one test that each database
writes in its own way. The name of the member stands in it as a quoted literal: a
quote in the name is doubled, and so are the characters that the dialect itself
treats specially.
-/

namespace Clearance

/-- A text with some of its characters doubled. -/
def doubled (special : List Char) (text : String) : String :=
  String.ofList (text.toList.flatMap fun c => if special.contains c then [c, c] else [c])

/-- The characters that a dialect doubles in a literal. -/
def specialCharacters : IdColumn → List Char
  | .native => ['\'', '%']
  | .written => ['\'']

/-- A text as a literal of a dialect. -/
def literal (column : IdColumn) (text : String) : String :=
  "'" ++ doubled (specialCharacters column) text ++ "'"

/-- The **test** that the data of a record hold a text under a field. -/
def textTest (column : IdColumn) (field : String) : String :=
  let key := literal column field
  match column with
  | .written => "(json_type(records.data, '$.\"' || " ++ key ++ " || '\"') = 'text')"
  | .native => "(json_typeof(records.data -> CAST(" ++ key ++ " AS TEXT)) = 'string')"

end Clearance
