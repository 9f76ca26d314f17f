/-!
# Actions

What may be done to an object. Four actions are proper; `manage` is a wildcard,
and a rule for it applies to every action.
-/

namespace Clearance

/-- An **action** that a rule allows or denies. -/
inductive Action
  | create | read | update | delete | manage
deriving DecidableEq, Repr, Inhabited

namespace Action

/-- Every action. -/
def all : List Action := [.create, .read, .update, .delete, .manage]

/-- The proper actions. -/
def proper : List Action := [.create, .read, .update, .delete]

/-- The actions that a container lends to what it displays. -/
def lendable : List Action := [.read, .update, .delete]

/-- The name of an action. -/
def name : Action → String
  | .create => "create"
  | .read => "read"
  | .update => "update"
  | .delete => "delete"
  | .manage => "manage"

/-- The action called `name`. -/
def ofName? (name : String) : Option Action :=
  all.find? fun action => action.name == name

/-- Every action is called by its name. -/
@[simp] theorem ofName?_name (action : Action) : ofName? action.name = some action := by
  cases action <;> decide

/-- No two actions share a name. -/
theorem name_inj {a b : Action} : a.name = b.name ↔ a = b := by
  refine ⟨fun h => ?_, congrArg name⟩
  have := congrArg ofName? h
  simpa using this

end Action

end Clearance
