/-!
# Permission types

An object lists roles under seven **permission types**. The four flat types are
open: while no role is listed under one of them, it admits everybody. The three
record-level types are closed: they admit nobody until a role is listed. An entry
of a record-level type, and an entry for creating records, may carry a rule about
the records it is meant for.
-/

namespace Clearance

/-- A **permission type**, under which an object lists roles. -/
inductive PermissionType
  | canSee | canUpdate | canDelete | canCreateRecords | canSeeRecords | canUpdateRecords
  | canDeleteRecords
deriving DecidableEq, Repr, Inhabited

namespace PermissionType

/-- Every permission type. -/
def all : List PermissionType :=
  [.canSee, .canUpdate, .canDelete, .canCreateRecords, .canSeeRecords, .canUpdateRecords,
    .canDeleteRecords]

/-- The key under which entries of a type are stored. -/
def key : PermissionType → String
  | .canSee => "canSee"
  | .canUpdate => "canUpdate"
  | .canDelete => "canDelete"
  | .canCreateRecords => "canCreateRecords"
  | .canSeeRecords => "canSeeRecords"
  | .canUpdateRecords => "canUpdateRecords"
  | .canDeleteRecords => "canDeleteRecords"

/-- The type stored under `key`. -/
def ofKey? (key : String) : Option PermissionType :=
  all.find? fun type => type.key == key

/-- Every type is found under its key. -/
@[simp] theorem ofKey?_key (type : PermissionType) : ofKey? type.key = some type := by
  cases type <;> decide

/-- No two types share a key. -/
theorem key_inj {a b : PermissionType} : a.key = b.key ↔ a = b := by
  refine ⟨fun h => ?_, congrArg key⟩
  have := congrArg ofKey? h
  simpa using this

/-- Whether a type speaks about existing records. -/
def recordLevel : PermissionType → Bool
  | .canSeeRecords | .canUpdateRecords | .canDeleteRecords => true
  | .canSee | .canUpdate | .canDelete | .canCreateRecords => false

/-- Whether a type admits everybody while no role is listed under it. -/
def openWhenEmpty (type : PermissionType) : Bool :=
  !type.recordLevel

/-- Whether an entry of a type may carry a rule about records. -/
def acceptsRules (type : PermissionType) : Bool :=
  type.recordLevel || type == .canCreateRecords

/-- What a type is called on a screen. -/
def label : PermissionType → String
  | .canSee => "See"
  | .canUpdate => "Update"
  | .canDelete => "Delete"
  | .canCreateRecords => "Create records"
  | .canSeeRecords => "See records"
  | .canUpdateRecords => "Update records"
  | .canDeleteRecords => "Delete records"

end PermissionType

end Clearance
