import Clearance.Ability.Basic
import Clearance.Proofs.Outcome

/-!
# How an ability decides

An ability asks its rules from the last to the first, and the first one met that decides
about the object gives the answer. This file says once what that amounts to, so that no
later file unfolds the scan:

* `Clearance.Ability.check_eq_true_iff`: an action is allowed when some allow rule decides
  and every later rule about the action declines;
* `Clearance.Ability.possible_eq_true_iff`: an action is possible when some allow rule is
  followed by conditional deny rules only;
* `Clearance.Ability.possible_of_check`: what is allowed on an object is possible on its
  kind. A kind-level refusal therefore speaks for every object, which is what makes it safe
  to append a deny rule after one;
* `Clearance.Ability.check_extend` and `Clearance.Ability.possible_extend`: of an extended
  ability the appended rules are asked first.
-/

namespace Clearance

open Outcome

/-! ### Single rules -/

namespace Rule

/-- Whether a rule **decides** about an object; a rule without a condition always does. -/
def meets (entity : Entity) (rule : Rule) : Except Fault Bool :=
  match rule.condition with
  | some condition => condition.check entity
  | none => .ok true

/-- Whether a rule is about an action on a kind. -/
def isAbout (action : Action) (kind : Kind) (rule : Rule) : Bool :=
  rule.kind == kind && rule.appliesTo action

/-- The rules for some actions on some kinds are one for each of them. -/
theorem mem_each {actions : List Action} {kinds : List Kind} {condition : Option Condition}
    {inverted : Bool} {rule : Rule} :
    rule ∈ each actions kinds condition inverted ↔
      rule.action ∈ actions ∧ rule.kind ∈ kinds ∧ rule.condition = condition ∧
        rule.inverted = inverted := by
  simp only [each, List.mem_flatMap, List.mem_map]
  constructor
  · rintro ⟨action, haction, kind, hkind, rfl⟩
    exact ⟨haction, hkind, rfl, rfl⟩
  · rintro ⟨haction, hkind, rfl, rfl⟩
    exact ⟨rule.action, haction, rule.kind, hkind, rfl⟩

/-- A rule that declines has a condition. -/
theorem isSome_condition_of_meets {entity : Entity} {rule : Rule}
    (h : rule.meets entity = .ok false) : rule.condition.isSome = true := by
  cases hc : rule.condition with
  | none => simp [meets, hc] at h
  | some condition => rfl

variable {entity : Entity}

/-- The scan takes its first rule if that decides and goes on if it declines. -/
theorem firstDeciding_cons (rule : Rule) (rest : List Rule) :
    firstDeciding entity (rule :: rest) =
      match rule.meets entity with
      | .error fault => .error fault
      | .ok true => .ok (some rule)
      | .ok false => firstDeciding entity rest := by
  rw [firstDeciding, meets]
  cases rule.condition <;> rfl

/-- The scan of two lists goes on to the second when the first has no rule that
decides. -/
theorem firstDeciding_append (first second : List Rule) :
    firstDeciding entity (first ++ second) =
      match firstDeciding entity first with
      | .ok none => firstDeciding entity second
      | answer => answer := by
  induction first with
  | nil => rfl
  | cons rule rest ih =>
    rw [List.cons_append, firstDeciding_cons, firstDeciding_cons, ih]
    rcases rule.meets entity with fault | _ | _ <;> rfl

/-- No rule decides exactly when all of them decline. -/
theorem firstDeciding_eq_none_iff {rules : List Rule} :
    firstDeciding entity rules = .ok none ↔ ∀ rule ∈ rules, rule.meets entity = .ok false := by
  induction rules with
  | nil => simp [firstDeciding]
  | cons rule rest ih =>
    rw [firstDeciding_cons, List.forall_mem_cons]
    rcases rule.meets entity with fault | _ | _
    · simp
    · simpa using ih
    · simp

/-- The rule that decides is the first that does not decline. -/
theorem firstDeciding_eq_some_iff {rules : List Rule} {rule : Rule} :
    firstDeciding entity rules = .ok (some rule) ↔
      ∃ earlier later, rules = earlier ++ rule :: later ∧
        (∀ other ∈ earlier, other.meets entity = .ok false) ∧ rule.meets entity = .ok true := by
  constructor
  · intro h
    induction rules with
    | nil => simp [firstDeciding] at h
    | cons first rest ih =>
      rw [firstDeciding_cons] at h
      rcases hm : first.meets entity with fault | _ | _ <;> rw [hm] at h
      · simp at h
      · obtain ⟨earlier, later, rfl, hearlier, hrule⟩ := ih h
        refine ⟨first :: earlier, later, rfl, ?_, hrule⟩
        exact List.forall_mem_cons.mpr ⟨hm, hearlier⟩
      · obtain rfl : first = rule := by simpa using h
        exact ⟨[], rest, rfl, by simp, hm⟩
  · rintro ⟨earlier, later, rfl, hearlier, hrule⟩
    rw [firstDeciding_append, firstDeciding_eq_none_iff.mpr hearlier]
    simp only [firstDeciding_cons, hrule]

/-- A fault of the scan is the fault of a rule. -/
theorem exists_of_firstDeciding_eq_error {rules : List Rule} {fault : Fault}
    (h : firstDeciding entity rules = .error fault) :
    ∃ rule ∈ rules, rule.meets entity = .error fault := by
  induction rules with
  | nil => simp [firstDeciding] at h
  | cons first rest ih =>
    rw [firstDeciding_cons] at h
    rcases hm : first.meets entity with other | _ | _ <;> rw [hm] at h
    · obtain rfl := Except.error.inj h
      exact ⟨first, List.mem_cons_self, hm⟩
    · obtain ⟨rule, hrule, hfault⟩ := ih h
      exact ⟨rule, List.mem_cons_of_mem _ hrule, hfault⟩
    · simp at h

end Rule

namespace Ability

variable {ability : Ability} {action : Action} {kind : Kind} {entity : Entity}

/-! ### What is allowed -/

theorem mem_rulesFor {rule : Rule} :
    rule ∈ ability.rulesFor action kind ↔ rule ∈ ability.rules ∧ rule.isAbout action kind := by
  rw [rulesFor, List.mem_filter]
  rfl

theorem kind_of_mem_rulesFor {rule : Rule} (h : rule ∈ ability.rulesFor action kind) :
    rule.kind = kind := by
  have habout := (mem_rulesFor.mp h).2
  rw [Rule.isAbout, Bool.and_eq_true, beq_iff_eq] at habout
  exact habout.1

/-- **An action is allowed** when some allow rule decides and every later rule about the
action declines. -/
theorem check_eq_true_iff :
    ability.check action kind entity = .ok true ↔
      ∃ earlier rule later, ability.rulesFor action kind = earlier ++ rule :: later ∧
        rule.inverted = false ∧ rule.meets entity = .ok true ∧
        ∀ other ∈ later, other.meets entity = .ok false := by
  rw [check, map_eq_ok]
  constructor
  · rintro ⟨answer, hanswer, hverdict⟩
    cases answer with
    | none => simp [Rule.verdict] at hverdict
    | some rule =>
      obtain ⟨later, earlier, hrules, hlater, hrule⟩ := Rule.firstDeciding_eq_some_iff.mp hanswer
      -- the scan goes backwards, so what it met earlier stands later
      refine ⟨earlier.reverse, rule, later.reverse, ?_, by simpa [Rule.verdict] using hverdict,
        hrule, by simpa using hlater⟩
      rw [← List.reverse_reverse (ability.rulesFor action kind), hrules]
      simp
  · rintro ⟨earlier, rule, later, hrules, hallow, hrule, hlater⟩
    refine ⟨some rule, Rule.firstDeciding_eq_some_iff.mpr ⟨later.reverse, earlier.reverse, ?_,
      by simpa using hlater, hrule⟩, by simp [Rule.verdict, hallow]⟩
    rw [hrules]
    simp

/-- **An action is possible** when some allow rule is followed by conditional deny rules
only. -/
theorem possible_eq_true_iff :
    ability.possible action kind = true ↔
      ∃ earlier rule later, ability.rulesFor action kind = earlier ++ rule :: later ∧
        rule.inverted = false ∧ ∀ other ∈ later, other.decidesKind = false := by
  rw [possible]
  constructor
  · intro h
    rcases hfind : (ability.rulesFor action kind).reverse.find? Rule.decidesKind with _ | rule
    · simp [hfind, Rule.verdict] at h
    · obtain ⟨-, later, earlier, hrules, hlater⟩ := List.find?_eq_some_iff_append.mp hfind
      refine ⟨earlier.reverse, rule, later.reverse, ?_, by simpa [hfind, Rule.verdict] using h,
        by simpa using hlater⟩
      rw [← List.reverse_reverse (ability.rulesFor action kind), hrules]
      simp
  · rintro ⟨earlier, rule, later, hrules, hallow, hlater⟩
    have hnone : later.reverse.find? Rule.decidesKind = none := by
      simpa [List.find?_eq_none] using hlater
    have hdecides : rule.decidesKind = true := by simp [Rule.decidesKind, hallow]
    rw [hrules]
    simp [hnone, hdecides, Rule.verdict, hallow]

/-- An allow rule makes an action possible if all rules after it have conditions: either one of
these allows too, or they can only deny some objects. -/
theorem possible_of_conditional_later {earlier later : List Rule} {rule : Rule}
    (hrules : ability.rulesFor action kind = earlier ++ rule :: later)
    (hallow : rule.inverted = false) (hlater : ∀ other ∈ later, other.condition.isSome = true) :
    ability.possible action kind = true := by
  have hdecides : rule.decidesKind = true := by simp [Rule.decidesKind, hallow]
  rw [possible, hrules, List.reverse_append, List.find?_append, List.reverse_cons,
    List.find?_append]
  rcases hfind : later.reverse.find? Rule.decidesKind with _ | other
  · simp [hdecides, Rule.verdict, hallow]
  · have hmem : other ∈ later := by simpa using List.mem_of_find?_eq_some hfind
    have hother : other.decidesKind = true := List.find?_some hfind
    have hsome := hlater other hmem
    have hnot : other.inverted = false := by
      rw [Rule.decidesKind] at hother
      cases hc : other.condition <;> simp_all
    simp [Rule.verdict, hnot]

/-- **What is allowed on an object is possible on its kind.** Of the rules after the one
that allows, all decline, so they are conditional. -/
theorem possible_of_check (h : ability.check action kind entity = .ok true) :
    ability.possible action kind = true := by
  obtain ⟨earlier, rule, later, hrules, hallow, -, hlater⟩ := check_eq_true_iff.mp h
  exact possible_of_conditional_later hrules hallow fun other hother =>
    Rule.isSome_condition_of_meets (hlater other hother)

/-! ### Extended abilities -/

variable (ability) (added : List Rule)

@[simp] theorem rules_extend : (ability.extend added).rules = ability.rules ++ added := rfl

theorem rulesFor_extend :
    (ability.extend added).rulesFor action kind =
      ability.rulesFor action kind ++ added.filter (Rule.isAbout action kind) := by
  rw [rulesFor, rules_extend, List.filter_append]
  rfl

/-- Of an extended ability the appended rules are asked first. -/
theorem check_extend :
    (ability.extend added).check action kind entity =
      match Rule.firstDeciding entity (added.filter (Rule.isAbout action kind)).reverse with
      | .error fault => .error fault
      | .ok (some rule) => .ok !rule.inverted
      | .ok none => ability.check action kind entity := by
  rw [check, rulesFor_extend, List.reverse_append, Rule.firstDeciding_append]
  rcases Rule.firstDeciding entity (added.filter (Rule.isAbout action kind)).reverse with
    fault | _ | rule <;> rfl

/-- The last of the appended rules about an action has the first word. -/
theorem check_extend_of_filter_eq_concat {rules : List Rule} {last : Rule}
    (h : added.filter (Rule.isAbout action kind) = rules ++ [last]) :
    (ability.extend added).check action kind entity =
      match last.meets entity with
      | .error fault => .error fault
      | .ok true => .ok !last.inverted
      | .ok false =>
        match Rule.firstDeciding entity rules.reverse with
        | .error fault => .error fault
        | .ok (some rule) => .ok !rule.inverted
        | .ok none => ability.check action kind entity := by
  rw [check_extend, h, List.reverse_append, List.reverse_singleton, List.singleton_append,
    Rule.firstDeciding_cons]
  rcases last.meets entity with fault | _ | _ <;> rfl

/-- Also about a kind the appended rules are asked first. -/
theorem possible_extend :
    (ability.extend added).possible action kind =
      match (added.filter (Rule.isAbout action kind)).reverse.find? Rule.decidesKind with
      | some rule => !rule.inverted
      | none => ability.possible action kind := by
  rw [possible, rulesFor_extend, List.reverse_append, List.find?_append]
  rcases (added.filter (Rule.isAbout action kind)).reverse.find? Rule.decidesKind with
    _ | rule <;> rfl

variable {ability added}

/-- Appended rules that all allow make possible what one of them is about. -/
theorem possible_extend_of_allowing (hallow : ∀ rule ∈ added, rule.inverted = false)
    (h : ∃ rule ∈ added, rule.isAbout action kind = true) :
    (ability.extend added).possible action kind = true := by
  obtain ⟨rule, hrule, habout⟩ := h
  rw [possible_extend]
  split
  · next found hfind =>
    have hmem := List.mem_reverse.mp (List.mem_of_find?_eq_some hfind)
    rw [hallow found (List.mem_filter.mp hmem).1]
    rfl
  · next hfind =>
    -- the rule is among those that are asked, and it decides about the kind
    have hdecides : rule.decidesKind = true := by simp [Rule.decidesKind, hallow rule hrule]
    exact absurd hdecides (List.find?_eq_none.mp hfind rule
      (List.mem_reverse.mpr (List.mem_filter.mpr ⟨hrule, habout⟩)))

/-- Appended rules that are not about an action do not change what is allowed. -/
theorem check_extend_of_not_about (h : ∀ rule ∈ added, rule.isAbout action kind = false) :
    (ability.extend added).check action kind entity = ability.check action kind entity := by
  have hnil : added.filter (Rule.isAbout action kind) = [] := by
    simpa [List.filter_eq_nil_iff] using h
  rw [check_extend, hnil]
  rfl

/-- Nor do they change what is possible. -/
theorem possible_extend_of_not_about (h : ∀ rule ∈ added, rule.isAbout action kind = false) :
    (ability.extend added).possible action kind = ability.possible action kind := by
  have hnil : added.filter (Rule.isAbout action kind) = [] := by
    simpa [List.filter_eq_nil_iff] using h
  rw [possible_extend, hnil]
  rfl

end Ability

end Clearance
