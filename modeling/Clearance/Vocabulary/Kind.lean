/-!
# Kinds of objects

Rules speak about **kinds** of objects. Fourteen kinds have stored objects; the
others only occur in rules about what may be done to a whole application. Three
kinds are *content*: they are displayed on pages and in steps.
-/

namespace Clearance

/-- A **kind** of objects that rules speak about. -/
inductive Kind
  | application | page | step | workflow | dashboard | form | resource | record | role | channel
  | user | notification | apiConfiguration | pullJob | referenceData | setting | template
  | distributionList | customNotification | emailNotification
deriving DecidableEq, Repr, Inhabited

namespace Kind

/-- Every kind. -/
def all : List Kind :=
  [.application, .page, .step, .workflow, .dashboard, .form, .resource, .record, .role, .channel,
    .user, .notification, .apiConfiguration, .pullJob, .referenceData, .setting, .template,
    .distributionList, .customNotification, .emailNotification]

/-- The kinds that have stored objects. -/
def stored : List Kind :=
  [.application, .page, .step, .workflow, .dashboard, .form, .resource, .record, .role, .channel,
    .user, .notification, .apiConfiguration, .referenceData]

/-- The kinds of objects that pages and steps display. -/
def content : List Kind := [.workflow, .dashboard, .form]

/-- The name of a kind. -/
def name : Kind → String
  | .application => "Application"
  | .page => "Page"
  | .step => "Step"
  | .workflow => "Workflow"
  | .dashboard => "Dashboard"
  | .form => "Form"
  | .resource => "Resource"
  | .record => "Record"
  | .role => "Role"
  | .channel => "Channel"
  | .user => "User"
  | .notification => "Notification"
  | .apiConfiguration => "ApiConfiguration"
  | .pullJob => "PullJob"
  | .referenceData => "ReferenceData"
  | .setting => "Setting"
  | .template => "Template"
  | .distributionList => "DistributionList"
  | .customNotification => "CustomNotification"
  | .emailNotification => "EmailNotification"

/-- The kind called `name`. -/
def ofName? (name : String) : Option Kind :=
  all.find? fun kind => kind.name == name

/-- Every kind is called by its name. -/
@[simp] theorem ofName?_name (kind : Kind) : ofName? kind.name = some kind := by
  cases kind <;> decide

/-- No two kinds share a name. -/
theorem name_inj {a b : Kind} : a.name = b.name ↔ a = b := by
  refine ⟨fun h => ?_, congrArg name⟩
  have := congrArg ofName? h
  simpa using this

/-- Whether objects of the kind are displayed on pages and in steps. -/
def isContent (kind : Kind) : Bool :=
  content.contains kind

end Kind

end Clearance
