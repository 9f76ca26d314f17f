import Clearance.Ability.Basic

/-!
# Asking an ability

Questions come from outside as words: the name of an action, and a **subject**
that is a kind by its name or an object. The action is read before the subject,
so a question with two unknown words is refused for the action. The same holds
when rules are defined, for each action and subject in turn.
-/

namespace Clearance

/-- What a question or a definition is **about**. -/
inductive Subject
  /-- A kind, by its name. -/
  | word (value : Value)
  /-- An object. -/
  | object (entity : Entity)
  /-- A thing that rules do not speak about. -/
  | thing (what : String)

namespace Subject

/-- The kind a subject belongs to. -/
def kind : Subject → Except AccessError Kind
  | .word value => Kind.read? value
  | .object entity => .ok entity.kind
  | .thing what => .error (.notSubject what)

/-- The object that a subject is. -/
def entity? : Subject → Option Entity
  | .object entity => some entity
  | _ => none

end Subject

/-- A **definition** of rules: each of the actions on each of the subjects. -/
structure Definition where
  /-- The names of the actions. -/
  actions : List Value
  /-- The subjects. -/
  subjects : List Subject
  /-- The condition of the rules. -/
  condition : Option Condition := none
  /-- Whether the rules deny. -/
  inverted : Bool := false

/-- The rules that a definition makes, in its order. -/
def Definition.rules (definition : Definition) : Except AccessError (List Rule) := do
  let perAction ← definition.actions.mapM fun action =>
    definition.subjects.mapM fun subject => do
      let action ← Action.read? action
      let kind ← subject.kind
      return { action, kind, condition := definition.condition, inverted := definition.inverted }
  return perAction.flatten

namespace Ability

variable (ability : Ability)

/-- The rules about a named action on a subject. -/
def rulesAbout (action : Value) (subject : Subject) : Except AccessError (List Rule) := do
  let action ← Action.read? action
  let kind ← subject.kind
  return ability.rulesFor action kind

/-- Whether a named action is allowed on a subject, or on an object judged as one
of the subject's kind. -/
def ask (action : Value) (subject : Subject) (object? : Option Entity) :
    Except AccessError Bool := do
  let action ← Action.read? action
  let kind ← subject.kind
  match object? <|> subject.entity? with
  | none => return ability.possible action kind
  | some entity => (ability.check action kind entity).mapError .fault

/-- Nothing, unless the named action is not granted. -/
def authorize (action : Value) (subject : Subject) (object? : Option Entity) :
    Except AccessError Unit := do
  if ← ability.ask action subject object? then return ()
  else
    let named ← Action.read? action
    let kind ← subject.kind
    let target := object? <|> subject.entity?
    throw (.notGranted named kind (target.bind Entity.id))

/-- How an ability is shown. -/
def text : String :=
  s!"Ability(rules={ability.rules.length})"

end Ability

end Clearance
