import Clearance.Document.Display
import Clearance.Document.Reading
import Clearance.Document.Writing
import Clearance.Document.Path
import Clearance.Number.Magnitude
import Clearance.Text.Blank
import Clearance.Text.Digit
import Clearance.Text.Numeral
import Clearance.Text.UpperCase
import Clearance.Identifier.Reading
import Clearance.Vocabulary.Action
import Clearance.Vocabulary.Kind
import Clearance.Vocabulary.PermissionType
import Clearance.Vocabulary.Flag
import Clearance.Error
import Clearance.Principal
import Clearance.Entity.Snapshot
import Clearance.Entity.Cell
import Clearance.Truth
import Clearance.Column.Stored
import Clearance.Column.Carrier
import Clearance.Condition.Basic
import Clearance.Condition.Filter
import Clearance.Engine.Basic
import Clearance.Engine.Extent
import Clearance.Engine.Effort
import Clearance.Engine.Search
import Clearance.Rule.Compile
import Clearance.Ability.Request
import Clearance.Ability.Base
import Clearance.Listing
import Clearance.Store.Basic
import Clearance.Store.Containment
import Clearance.Ability.Cascade
import Clearance.Ability.Records
import Clearance.FieldAccess
import Clearance.Log.Journal
import Clearance.Log.Line
import Clearance.Response
import Clearance.Identifier.Column
import Clearance.Condition.Sql
import Clearance.Context
import Clearance.Settings
import Clearance.Store.Catalog
import Clearance.Store.Insertion
import Clearance.Store.Inventory
import Clearance.Condition.Document
import Clearance.Principal.Document
import Clearance.Proofs.Ability.Decision
import Clearance.Proofs.Ability.Openness
import Clearance.Proofs.Ability.Areas
import Clearance.Proofs.Ability.Extension
import Clearance.Proofs.Ability.Growth
import Clearance.Proofs.Store.Keys
import Clearance.Proofs.Store.Upwards
import Clearance.Proofs.Ability.Lending
import Clearance.Proofs.Filter.Meaning
import Clearance.Proofs.Filter.Leaf
import Clearance.Proofs.Engine.Search
import Clearance.Proofs.Ability.Selection
import Clearance.Proofs.Column.Comparison
import Clearance.Proofs.Condition.Leaf
import Clearance.Proofs.Condition.Agreement
import Clearance.Proofs.Ability.Naming
import Clearance.Proofs.Ability.Access
import Clearance.Proofs.Rule.Meaning
import Clearance.Proofs.Identifier.Grammar
import Clearance.Proofs.Rule.Name
import Clearance.Proofs.Rule.Grammar
import Clearance.Proofs.Rule.Defect
import Clearance.Proofs.Text.Pattern
import Clearance.Proofs.Ability.Submission
import Clearance.Proofs.Ability.Opening
import Clearance.Proofs.Ability.Separation
import Clearance.Proofs.Ability.Widening
import Clearance.Proofs.Ability.Promotion
import Clearance.Proofs.Context.Memo
import Clearance.Proofs.Context.History
import Clearance.Proofs.Store.Loading
import Clearance.Proofs.Context.Archived
import Clearance.Proofs.Ability.Rendering
import Clearance.Proofs.Context.Visible
import Clearance.Proofs.Ability.Borrowing
import Clearance.Proofs.Ability.Denials
import Clearance.Proofs.Ability.Repetition
import Clearance.Proofs.Ability.Contents
import Clearance.Proofs.Ability.Scopes
import Clearance.Proofs.Ability.Entries
import Clearance.Proofs.Rule.Depth
import Clearance.Proofs.Ability.OneForm
import Clearance.Proofs.Condition.Substring
import Clearance.Proofs.Ability.Possibility
import Clearance.Proofs.Ability.Idleness
import Clearance.Proofs.Ability.Creation
import Clearance.Proofs.Ability.Parts
import Clearance.Proofs.Ability.NamedContainer
import Clearance.Proofs.Ability.SeveralForms
import Clearance.Proofs.Field.Access
import Clearance.Proofs.Rule.Field
import Clearance.Proofs.Identifier.Coercion
import Clearance.Proofs.Column.Identifiers
import Clearance.Proofs.Principal.Snapshot
import Clearance.Proofs.Store.Ancestry
import Clearance.Proofs.Log.Permanence
import Clearance.Proofs.Settings
import Clearance.Proofs.Response
import Clearance.Proofs.Store.Catalog
import Clearance.Proofs.Condition.Literal
