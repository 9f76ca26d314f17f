import Clearance.Condition.Filter

/-!
# Abilities

An **ability** is an ordered list of rules for one principal. A rule names an
action and a kind, may carry a condition, and allows or denies. Of the rules for
an action and a kind the *last word* counts: the last rule that decides.

Two questions can be asked. `Clearance.Ability.can` is about one object, and a
rule decides when its condition holds of it. `Clearance.Ability.possible` is about
a kind, and asks whether the action is possible on some object of it: conditions
are disregarded, and a deny rule with a condition cannot rule out the kind.

`Clearance.Ability.filter` folds the same rules into one filter for the store. In
the order of definition an allow rule widens the filter and a deny rule narrows
it, so that there too the rule defined last has the final say.
-/

namespace Clearance

/-! ### Rules -/

/-- A **rule**: an action on the objects of a kind that meet a condition is
allowed, or, if the rule is inverted, denied. -/
structure Rule where
  /-- The action. -/
  action : Action
  /-- The kind of the objects. -/
  kind : Kind
  /-- The condition on the objects, if the rule is not about all of them. -/
  condition : Option Condition := none
  /-- Whether the rule denies. -/
  inverted : Bool := false

namespace Rule

/-- Whether a rule is about an action; a rule for `manage` is about every one. -/
def appliesTo (rule : Rule) (action : Action) : Bool :=
  rule.action == .manage || rule.action == action

/-- Whether a rule decides about an object. -/
def decides (entity : Entity) (rule : Rule) : Bool :=
  match rule.condition with
  | some condition => condition.holds entity
  | none => true

/-- Whether a rule decides about a whole kind. -/
def decidesKind (rule : Rule) : Bool :=
  rule.condition.isNone || !rule.inverted

/-- What the rule that has the last word says; without one, no. -/
def verdict : Option Rule → Bool
  | some rule => !rule.inverted
  | none => false

/-- The rules that allow or deny some actions on some kinds under one
condition. -/
def each (actions : List Action) (kinds : List Kind) (condition : Option Condition)
    (inverted : Bool) : List Rule :=
  actions.flatMap fun action => kinds.map fun kind => { action, kind, condition, inverted }

/-- The rules that allow some actions on some kinds. -/
def allow (actions : List Action) (kinds : List Kind) (condition : Option Condition := none) :
    List Rule :=
  each actions kinds condition false

/-- The first rule of a list that decides about an object, or the first fault met
while the rules before it are tried. -/
def firstDeciding (entity : Entity) : List Rule → Except Fault (Option Rule)
  | [] => .ok none
  | rule :: rest =>
    match rule.condition with
    | none => .ok (some rule)
    | some condition =>
      match condition.check entity with
      | .error fault => .error fault
      | .ok true => .ok (some rule)
      | .ok false => firstDeciding entity rest

end Rule

/-! ### Abilities -/

/-- An **ability**: ordered rules for one principal. -/
structure Ability where
  /-- The rules, in the order of definition. -/
  rules : List Rule := []
  /-- The principal, if the ability is anybody's. -/
  principal : Option Principal := none

namespace Ability

variable (ability : Ability) (action : Action) (kind : Kind)

/-- The rules about an action on a kind, in the order of definition. -/
def rulesFor : List Rule :=
  ability.rules.filter fun rule => rule.kind == kind && rule.appliesTo action

/-- Whether an action is allowed on an object, judged by the rules about a
kind. -/
def can (entity : Entity) : Bool :=
  Rule.verdict ((ability.rulesFor action kind).reverse.find? (Rule.decides entity))

/-- Whether an action is **possible** on some object of a kind. -/
def possible : Bool :=
  Rule.verdict ((ability.rulesFor action kind).reverse.find? Rule.decidesKind)

/-- Whether an action is allowed on an object, judged by the rules about a kind,
unless a rule meets data it cannot look into. -/
def check (entity : Entity) : Except Fault Bool :=
  (Rule.firstDeciding entity (ability.rulesFor action kind).reverse).map Rule.verdict

/-- Whether an action is **allowed** on an object, judged by the rules about its own
kind. -/
def allows (entity : Entity) : Except Fault Bool :=
  ability.check action entity.kind entity

/-- An ability with more rules at its end. -/
def extend (rules : List Rule) : Ability :=
  { ability with rules := ability.rules ++ rules }

/-! ### The filter of an ability -/

/-- A filter widened or narrowed by one more rule. -/
def refine (filter : Filter) (rule : Rule) : Except Fault Filter :=
  match rule.condition with
  | none => .ok (.constant !rule.inverted)
  | some condition =>
    (condition.filter kind).map fun clause =>
      if rule.inverted then .conjunction [.negation clause, filter]
      else .disjunction [clause, filter]

/-- The **filter** that selects the objects of a kind on which an action is
allowed. -/
def filter : Except Fault Filter :=
  (ability.rulesFor action kind).foldlM (refine kind) (.constant false)

end Ability

end Clearance
