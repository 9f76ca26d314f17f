import Clearance.Document.Value
import Clearance.Principal
import Clearance.Vocabulary.Kind

/-!
# Objects

The **objects** that decisions are about, one constructor a kind. Nine kinds are
*listed*: they carry role lists, one entry a role and permission type. An object
that has been stored has an identifier and no missing columns; one that has only
been made may lack any of them.

A record carries the form and the resource it was loaded with, since the rules of
its form and the field definitions of its resource decide about it. A record that has
only been made may carry any object in their places.

Names, titles and flags are documents: an object that has only been made may hold
anything in their places, while one that has been stored holds what its columns store.
-/

namespace Clearance

/-! ### Parts of objects -/

/-- One **entry** of a role list: a role under a permission type, with a rule
about records if there is one. -/
structure Grant where
  /-- The key of the permission type. -/
  type : String
  /-- The role listed. -/
  roleId : Uuid
  /-- The stored rule. -/
  access : Option Value := none

/-- What the objects that carry role lists have in common. -/
structure Listed where
  /-- The identifier. -/
  id : Option Uuid := none
  /-- The name. -/
  name : Value := .null
  /-- The entries of the role lists, in the order in which they were made. -/
  grants : List Grant := []

/-- What a page or a step displays. -/
structure Display where
  /-- The kind of the content, by name. -/
  kind : Value := .null
  /-- The content. -/
  id : Option Uuid := none

/-- A **form**, which records are submissions of. -/
structure Form extends Listed where
  /-- The resource that shares the records of the form. -/
  resourceId : Option Uuid := none
  /-- Whether it is the main form of its resource. -/
  core : Value := .null
  /-- The field definitions. -/
  fields : Value := .null

/-- A **resource**, shared by the forms that fill it. -/
structure Resource extends Listed where
  /-- The field definitions. -/
  fields : Value := .null

/-- A **record**: a submission of a form. The form and the resource are objects of some
`Source`. -/
structure RecordOf (Source : Type) where
  /-- The identifier. -/
  id : Option Uuid := none
  /-- The form it was submitted through. -/
  formId : Option Uuid := none
  /-- The resource it belongs to. -/
  resourceId : Option Uuid := none
  /-- The values of its fields. -/
  data : Value := .null
  /-- Whether it is out of use. -/
  archived : Value := .null
  /-- The groups that share it. -/
  groupIds : List Uuid := []
  /-- The form, if it exists. -/
  form : Option Source := none
  /-- The resource, if it exists. -/
  resource : Option Source := none

/-- A row of the flags of a role: a key in one of the two scopes. -/
structure FlagRow where
  /-- The key of the flag. -/
  key : String
  /-- Whether the role carries the flag everywhere. -/
  isGlobal : Bool
deriving DecidableEq

/-- A **role**, with what it carries. -/
structure Role where
  /-- The identifier. -/
  id : Option Uuid := none
  /-- The title. -/
  title : Value := .null
  /-- The application it belongs to. -/
  applicationId : Option Uuid := none
  /-- The flags it carries, in either scope. -/
  flags : List FlagRow := []
  /-- The channels it subscribes to. -/
  channelIds : List Uuid := []

/-- A **channel**, which notifications are sent to. -/
structure Channel where
  /-- The identifier. -/
  id : Option Uuid := none
  /-- The title. -/
  title : Value := .null
  /-- The application it belongs to. -/
  applicationId : Option Uuid := none

/-- A **user**, with the roles it holds. -/
structure User where
  /-- The identifier. -/
  id : Option Uuid := none
  /-- The name the user signs in with. -/
  username : Value := .null
  /-- The roles the user holds. -/
  roles : List Role := []
  /-- The groups the user belongs to. -/
  groupIds : List Uuid := []
  /-- The values of the user's position attributes, each with its category. -/
  attributes : List (Uuid × String) := []

/-- A **notification**, sent to a channel. -/
structure Notification where
  /-- The identifier. -/
  id : Option Uuid := none
  /-- What happened. -/
  action : Value := .null
  /-- The channel it was sent to. -/
  channelId : Option Uuid := none
  /-- The users who have seen it. -/
  seenBy : List Uuid := []

/-! ### Objects -/

/-- An **object**. -/
inductive Entity
  | application (listed : Listed) (status : Value)
  | page (listed : Listed) (applicationId : Option Uuid) (display : Display)
  | step (listed : Listed) (workflowId : Option Uuid) (display : Display)
  | workflow (listed : Listed)
  | dashboard (listed : Listed)
  | form (form : Form)
  | resource (resource : Resource)
  | record (record : RecordOf Entity)
  | role (role : Role)
  | channel (channel : Channel)
  | user (user : User)
  | notification (notification : Notification)
  | apiConfiguration (listed : Listed)
  | referenceData (listed : Listed)

/-- A **record** with the objects that it came through. -/
abbrev Record := RecordOf Entity

namespace Entity

/-- The kind of an object. -/
def kind : Entity → Kind
  | application .. => .application
  | page .. => .page
  | step .. => .step
  | workflow .. => .workflow
  | dashboard .. => .dashboard
  | form .. => .form
  | resource .. => .resource
  | record .. => .record
  | role .. => .role
  | channel .. => .channel
  | user .. => .user
  | notification .. => .notification
  | apiConfiguration .. => .apiConfiguration
  | referenceData .. => .referenceData

/-- What an object that carries role lists shares with the others. -/
def listed? : Entity → Option Listed
  | application listed _ | page listed _ _ | step listed _ _ | workflow listed | dashboard listed
  | apiConfiguration listed | referenceData listed => some listed
  | form f => some f.toListed
  | resource r => some r.toListed
  | record _ | role _ | channel _ | user _ | notification _ => none

/-- The identifier of an object. -/
def id : Entity → Option Uuid
  | application listed _ | page listed _ _ | step listed _ _ | workflow listed | dashboard listed
  | apiConfiguration listed | referenceData listed => listed.id
  | form f => f.id
  | resource r => r.id
  | record r => r.id
  | role r => r.id
  | channel c => c.id
  | user u => u.id
  | notification n => n.id

/-- The entries of the role lists of an object; some kinds have none. -/
def grants (entity : Entity) : List Grant :=
  match entity.listed? with
  | some listed => listed.grants
  | none => []

/-- The field definitions of a form or a resource; other objects have none. -/
def fields : Entity → Value
  | form f => f.fields
  | resource r => r.fields
  | _ => .null

/-- The values of the fields of a record; other objects have none. -/
def data : Entity → Value
  | record r => r.data
  | _ => .null

end Entity

end Clearance
