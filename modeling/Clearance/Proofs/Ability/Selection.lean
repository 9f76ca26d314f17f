import Clearance.Proofs.Ability.Decision
import Clearance.Proofs.Filter.Leaf
import Clearance.Proofs.Filter.Meaning
import Clearance.Proofs.Outcome
import Clearance.Proofs.Store.Keys
import Mathlib.Data.List.Induction

/-!
# What the filter of an ability selects

An ability answers in two ways. About one object it asks its rules from the last to the
first and stops at the first that decides. For a store it folds the same rules from the
first to the last into a filter, which an allow rule widens, a deny rule narrows and a rule
without a condition replaces. The two agree (`Clearance.Ability.exists_filter`) whenever the
condition of each rule *renders* on the rows (`Clearance.Condition.Renders`): whatever the
filter was before, one more rule at the end has the last word in both.

A store that carries out a search finds just the rows that the filter selects
(`Clearance.Store.select_eq_ok_iff`).
-/

namespace Clearance

open Outcome

/-- **What a search finds.** It finds something just when no operand is refused and the engine
carries it out, and then it finds all rows that are selected. -/
theorem Store.select_eq_ok_iff {store : Store} {kind : Kind} {filter : Filter}
    {found : List Entity} (hopen : store.isOpen = true) :
    store.select kind filter = .ok found ↔
      filter.refusals = [] ∧ store.engine.CarriesOut filter (store.ofKind kind) ∧
        (store.ofKind kind).filter filter.selects = found := by
  have hreached : store.reached = .ok () := by rw [reached, if_pos hopen]
  rw [select, hreached, ← and_assoc, ← Engine.fault?_eq_none_iff]
  cases hfault : store.engine.fault? filter (store.ofKind kind) with
  | none => simp [hfault, bind, Except.bind, pure, Except.pure]
  | some fault => simp [hfault, bind, Except.bind, throw, throwThe, MonadExceptOf.throw]

/-- A condition that **renders** on the rows of a kind: it can be written as a filter of which
no operand is refused, and the filter is true or false of every row, never unknown, just as the
condition holds of it or does not. -/
def Condition.Renders (kind : Kind) (rows : List Entity) (condition : Condition) : Prop :=
  ∃ filter, condition.filter kind = .ok filter ∧ filter.refusals = [] ∧
    ∀ row ∈ rows, ∃ answer, filter.eval row = some answer ∧ condition.check row = .ok answer

namespace Ability

variable {kind : Kind} {rows : List Entity} {filter : Filter} {rule : Rule}

/-- **One more rule** has the last word, in the filter as in the scan. If it declines, both
say what they said before. -/
theorem exists_refine {before : List Rule} (htaken : filter.refusals = [])
    (hrenders : ∀ condition, rule.condition = some condition → condition.Renders kind rows)
    (hbefore : ∀ row ∈ rows, ∃ last, Rule.firstDeciding row before = .ok last ∧
      filter.eval row = some (Rule.verdict last)) :
    ∃ refined, refine kind filter rule = .ok refined ∧ refined.refusals = [] ∧
      ∀ row ∈ rows, ∃ last, Rule.firstDeciding row (rule :: before) = .ok last ∧
        refined.eval row = some (Rule.verdict last) := by
  cases hcondition : rule.condition with
  | none =>
    refine ⟨.constant !rule.inverted, by rw [refine, hcondition], rfl,
      fun row hrow => ⟨some rule, ?_, ?_⟩⟩
    · rw [Rule.firstDeciding_cons, Rule.meets, hcondition]
    · rw [Filter.eval, Rule.verdict]
  | some condition =>
    obtain ⟨clause, hclause, hclauseTaken, hanswers⟩ := hrenders condition hcondition
    refine ⟨if rule.inverted then .conjunction [.negation clause, filter]
      else .disjunction [clause, filter], by rw [refine, hcondition]; simp [hclause, Except.map],
      ?_, fun row hrow => ?_⟩
    · split
      · refine Filter.refusals_conjunction ?_
        simpa using ⟨Filter.refusals_negation hclauseTaken, htaken⟩
      · refine Filter.refusals_disjunction ?_
        simpa using ⟨hclauseTaken, htaken⟩
    · obtain ⟨answer, heval, hcheck⟩ := hanswers row hrow
      obtain ⟨last, hlast, hfilter⟩ := hbefore row hrow
      have hmeets : rule.meets row = .ok answer := by rw [Rule.meets, hcondition]; exact hcheck
      rw [Rule.firstDeciding_cons, hmeets]
      -- whether the rule decides about the row, and what it says
      cases answer with
      | true =>
        refine ⟨some rule, rfl, ?_⟩
        cases hinverted : rule.inverted <;>
          simp [hinverted, heval, hfilter, Rule.verdict]
      | false =>
        refine ⟨last, hlast, ?_⟩
        cases hinverted : rule.inverted <;>
          simp [heval, hfilter]

/-- **The fold and the scan agree**, by induction on the rules from the last one. -/
theorem exists_foldlM_refine {rules : List Rule}
    (hrenders : ∀ rule ∈ rules, ∀ condition, rule.condition = some condition →
      condition.Renders kind rows) :
    ∃ filter, rules.foldlM (refine kind) (.constant false) = .ok filter ∧
      filter.refusals = [] ∧
      ∀ row ∈ rows, ∃ last, Rule.firstDeciding row rules.reverse = .ok last ∧
        filter.eval row = some (Rule.verdict last) := by
  induction rules using List.reverseRecOn with
  | nil => exact ⟨_, rfl, rfl, fun row _ => ⟨none, rfl, rfl⟩⟩
  | append_singleton rules rule ih =>
    obtain ⟨hrules, hrule⟩ := List.forall_mem_append.mp hrenders
    -- the last rule is folded last and asked first
    obtain ⟨filter, hfilter, htaken, hanswers⟩ := ih hrules
    obtain ⟨refined, hrefined, hrefinedTaken, hlast⟩ :=
      exists_refine htaken (hrule rule (List.mem_singleton_self rule)) hanswers
    refine ⟨refined, ?_, hrefinedTaken, ?_⟩
    · rw [List.foldlM_append, hfilter]
      simp [hrefined, bind, Except.bind, pure, Except.pure]
    · simpa using hlast

variable {ability : Ability} {action : Action}

/-- **The filter of an ability** is true of a row when the ability allows the action on it,
and false otherwise. -/
theorem exists_filter
    (hrenders : ∀ rule ∈ ability.rulesFor action kind, ∀ condition,
      rule.condition = some condition → condition.Renders kind rows) :
    ∃ filter, ability.filter action kind = .ok filter ∧ filter.refusals = [] ∧
      ∀ row ∈ rows, ∃ answer, filter.eval row = some answer ∧
        ability.check action kind row = .ok answer := by
  obtain ⟨filter, hfilter, htaken, hanswers⟩ := exists_foldlM_refine hrenders
  refine ⟨filter, hfilter, htaken, fun row hrow => ?_⟩
  obtain ⟨last, hlast, heval⟩ := hanswers row hrow
  exact ⟨Rule.verdict last, heval, by rw [check, hlast]; rfl⟩

/-- A store gives back as **accessible** what the filter of the ability finds. -/
theorem accessible_eq_select {store : Store} (hopen : store.isOpen = true)
    (hfilter : ability.filter action kind = .ok filter) :
    store.accessible ability action kind = store.select kind filter := by
  have hreached : store.reached = .ok () := by rw [Store.reached, if_pos hopen]
  rw [Store.accessible, hreached, hfilter]
  rfl

end Ability

end Clearance
