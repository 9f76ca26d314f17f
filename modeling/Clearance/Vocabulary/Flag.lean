/-!
# Role flags

A role carries **flags**. The flags of the *global* scope unlock kinds of objects
everywhere; those of the *application* scope count only within the role's own
application. Two keys occur in both scopes and mean different things there. The
catalog lists every flag, the global scope first.
-/

namespace Clearance

/-! ### The global scope -/

/-- A **global flag** of a role. -/
inductive GlobalFlag
  | seeApplications | createApplications | manageApplications | seeForms | createForms
  | manageForms | seeResources | createResources | manageResources | seeRoles | seeUsers
  | manageApiConfigurations
deriving DecidableEq, Repr, Inhabited

namespace GlobalFlag

/-- Every flag of this scope. -/
def all : List GlobalFlag :=
  [.seeApplications, .createApplications, .manageApplications, .seeForms, .createForms,
    .manageForms, .seeResources, .createResources, .manageResources, .seeRoles, .seeUsers,
    .manageApiConfigurations]

/-- The key under which a flag is stored. -/
def key : GlobalFlag → String
  | .seeApplications => "can_see_applications"
  | .createApplications => "can_create_applications"
  | .manageApplications => "can_manage_applications"
  | .seeForms => "can_see_forms"
  | .createForms => "can_create_forms"
  | .manageForms => "can_manage_forms"
  | .seeResources => "can_see_resources"
  | .createResources => "can_create_resources"
  | .manageResources => "can_manage_resources"
  | .seeRoles => "can_see_roles"
  | .seeUsers => "can_see_users"
  | .manageApiConfigurations => "can_manage_api_configurations"

/-- What a flag is called on a screen. -/
def label : GlobalFlag → String
  | .seeApplications => "See applications"
  | .createApplications => "Create applications"
  | .manageApplications => "Manage applications"
  | .seeForms => "See forms"
  | .createForms => "Create forms"
  | .manageForms => "Manage forms"
  | .seeResources => "See resources"
  | .createResources => "Create resources"
  | .manageResources => "Manage resources"
  | .seeRoles => "Manage roles"
  | .seeUsers => "Manage users"
  | .manageApiConfigurations => "Manage API configurations"

/-- What a flag permits. -/
def description : GlobalFlag → String
  | .seeApplications => "Read every application in the tenant."
  | .createApplications => "Create new applications."
  | .manageApplications => "Manage every application and everything it contains."
  | .seeForms => "Read every form and its records."
  | .createForms => "Create new forms."
  | .manageForms => "Create, update and delete every form, and manage every record."
  | .seeResources => "Read every resource and its records."
  | .createResources => "Create new resources."
  | .manageResources => "Create, update and delete every resource, and manage every record."
  | .seeRoles => "Manage every role and channel."
  | .seeUsers => "Manage every user."
  | .manageApiConfigurations => "Manage API configurations, pull jobs and reference data."

end GlobalFlag

/-! ### The application scope -/

/-- An **application flag** of a role. -/
inductive ApplicationFlag
  | seeRoles | seeUsers | manageTemplates | manageDistributionLists | manageCustomNotifications
  | seeEmailNotifications | createEmailNotifications | manageEmailNotifications
deriving DecidableEq, Repr, Inhabited

namespace ApplicationFlag

/-- Every flag of this scope. -/
def all : List ApplicationFlag :=
  [.seeRoles, .seeUsers, .manageTemplates, .manageDistributionLists, .manageCustomNotifications,
    .seeEmailNotifications, .createEmailNotifications, .manageEmailNotifications]

/-- The key under which a flag is stored. -/
def key : ApplicationFlag → String
  | .seeRoles => "can_see_roles"
  | .seeUsers => "can_see_users"
  | .manageTemplates => "can_manage_templates"
  | .manageDistributionLists => "can_manage_distribution_lists"
  | .manageCustomNotifications => "can_manage_custom_notifications"
  | .seeEmailNotifications => "can_see_email_notifications"
  | .createEmailNotifications => "can_create_email_notifications"
  | .manageEmailNotifications => "can_manage_email_notifications"

/-- What a flag is called on a screen. -/
def label : ApplicationFlag → String
  | .seeRoles => "Manage application roles"
  | .seeUsers => "Manage application users"
  | .manageTemplates => "Manage templates"
  | .manageDistributionLists => "Manage distribution lists"
  | .manageCustomNotifications => "Manage custom notifications"
  | .seeEmailNotifications => "See email notifications"
  | .createEmailNotifications => "Create email notifications"
  | .manageEmailNotifications => "Manage email notifications"

/-- What a flag permits. -/
def description : ApplicationFlag → String
  | .seeRoles => "Manage roles and channels of the role's application."
  | .seeUsers => "Manage users of the role's application."
  | .manageTemplates => "Manage email templates of the role's application."
  | .manageDistributionLists => "Manage distribution lists of the role's application."
  | .manageCustomNotifications => "Manage custom notifications of the role's application."
  | .seeEmailNotifications => "Read email notifications of the role's application."
  | .createEmailNotifications => "Create email notifications in the role's application."
  | .manageEmailNotifications => "Manage email notifications of the role's application."

end ApplicationFlag

/-! ### The catalog -/

/-- A row of the catalog of flags. -/
structure Flag where
  /-- The key under which the flag is stored. -/
  key : String
  /-- Whether the flag belongs to the global scope. -/
  isGlobal : Bool
  /-- What the flag is called on a screen. -/
  label : String
  /-- What the flag permits. -/
  description : String
deriving DecidableEq, Repr

/-- The **catalog** of flags. -/
def Flag.catalog : List Flag :=
  (GlobalFlag.all.map fun flag => ⟨flag.key, true, flag.label, flag.description⟩) ++
    ApplicationFlag.all.map fun flag => ⟨flag.key, false, flag.label, flag.description⟩

end Clearance
