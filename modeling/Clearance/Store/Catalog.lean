import Clearance.Store.Basic
import Clearance.Text.Sorted

/-!
# The stored catalog of flags

The flags that roles have been described with are rows of the catalog already,
labelled with their keys. Every flag of the vocabulary that is missing is added with its proper
label. The catalog is read in ascending order of keys, and of two rows with one
key the one of the narrower scope comes first.
-/

namespace Clearance.Store

/-- A **row** of the stored catalog. -/
structure CatalogRow where
  /-- The key of the flag. -/
  key : String
  /-- Whether the flag belongs to the global scope. -/
  isGlobal : Bool
  /-- What the flag is called. -/
  label : String
deriving DecidableEq

/-- Whether a row comes before another. -/
def CatalogRow.before (a b : CatalogRow) : Bool :=
  a.key < b.key || (a.key == b.key && (!a.isGlobal && b.isGlobal))

/-- A row put into an ascending catalog, unless its flag is there. -/
def addRow (row : CatalogRow) : List CatalogRow → List CatalogRow
  | [] => [row]
  | other :: rest =>
    if other.before row then other :: addRow row rest
    else if row.before other then row :: other :: rest
    else other :: rest

/-- The row of a flag that has been mentioned: its key is its label. -/
def mentionedRow (flag : FlagRow) : CatalogRow :=
  ⟨flag.key, flag.isGlobal, flag.key⟩

/-- The **catalog** of a store, completed with the flags of the vocabulary. -/
def catalog (store : Store) : List CatalogRow :=
  let mentioned := store.flags.map mentionedRow
  let proper := Flag.catalog.map fun flag => CatalogRow.mk flag.key flag.isGlobal flag.label
  (mentioned ++ proper).foldl (fun rows row => addRow row rows) []

end Clearance.Store
