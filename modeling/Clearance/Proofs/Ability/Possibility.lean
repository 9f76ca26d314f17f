import Clearance.Proofs.Ability.Selection

/-!
# What is possible on a kind

About a kind there is no object to try conditions on, so an ability answers for all objects at
once. Conditions can come out in any way. An *assignment* says for each place of a list of rules
whether the condition there holds, also twice the same condition in two ways, and the rules that
then hold are left (`Clearance.Rule.holding`). An action is possible exactly when under some
assignment the last rule that holds allows (`Clearance.Ability.possible_exact`).

The scan finds this without trying assignments. Conditions that hold nowhere but at one allow rule
bring that rule up, unless a rule without a condition stands after it; conditional deny rules never
have to hold.

An action that is not possible is refused throughout: on no object is it allowed, and the filter
for it is false of every row. It need not be the constant, because conditions are written into it
all the same, but each stands next to a false part, so that not even an unknown comparison shows.
-/

namespace Clearance

open Outcome

/-! ### Assignments -/

namespace Rule

/-- The rules of a list that **hold** under an assignment of truth values to their places: those
without a condition, and those with one at a place that is assigned true. -/
def holding (assigned : Nat → Bool) (rules : List Rule) : List Rule :=
  (rules.zipIdx.filter fun (rule, place) => rule.condition.isNone || assigned place).map (·.1)

variable {rules earlier later : List Rule} {rule : Rule} {assigned : Nat → Bool}

/-- A rule that holds last is followed by rules with conditions only. -/
theorem exists_of_getLast?_holding (h : (holding assigned rules).getLast? = some rule) :
    ∃ earlier later, rules = earlier ++ rule :: later ∧
      ∀ other ∈ later, other.condition.isSome = true := by
  rw [holding, List.getLast?_map, Option.map_eq_some_iff] at h
  obtain ⟨⟨kept, place⟩, hlast, rfl⟩ := h
  obtain ⟨front, hfront⟩ := List.getLast?_eq_some_iff.mp hlast
  obtain ⟨before, fromHere, hsplit, -, hfromHere⟩ := List.filter_eq_append_iff.mp hfront
  obtain ⟨skipped, after, rfl, -, -, hafter⟩ := List.filter_eq_cons_iff.mp hfromHere
  refine ⟨(before ++ skipped).map (·.1), after.map (·.1), ?_, fun other hother => ?_⟩
  · rw [← List.zipIdx_map_fst 0 rules, hsplit]
    simp
  · obtain ⟨⟨other, place⟩, hmem, rfl⟩ := List.mem_map.mp hother
    have hdropped := List.filter_eq_nil_iff.mp hafter _ hmem
    simp only [Bool.or_eq_true, not_or, Option.isNone_iff_eq_none] at hdropped
    exact Option.isSome_iff_ne_none.mpr hdropped.1

/-- Where no other condition holds, a rule that is followed by rules with conditions holds last. -/
theorem getLast?_holding_of_alone (hlater : ∀ other ∈ later, other.condition.isSome = true) :
    (holding (· == earlier.length) (earlier ++ rule :: later)).getLast? = some rule := by
  have hnone : (later.zipIdx (0 + earlier.length + 1)).filter
      (fun (other, place) => other.condition.isNone || place == earlier.length) = [] := by
    refine List.filter_eq_nil_iff.mpr ?_
    rintro ⟨other, place⟩ hmem
    have hplace : earlier.length < place := by
      have := List.le_snd_of_mem_zipIdx hmem
      omega
    have hother := hlater other (List.fst_mem_of_mem_zipIdx hmem)
    simp only [Bool.or_eq_true, Option.isNone_iff_eq_none, beq_iff_eq, not_or]
    exact ⟨Option.isSome_iff_ne_none.mp hother, by omega⟩
  rw [holding, List.zipIdx_append, List.zipIdx_cons, List.filter_append, List.filter_cons_of_pos,
    hnone]
  · simp
  · simp

end Rule

namespace Ability

variable {ability : Ability} {action : Action} {kind : Kind} {entity row : Entity} {fault : Fault}
  {filter refined : Filter} {rule : Rule}

/-- **An action is possible** exactly when under some assignment the last rule that holds
allows. -/
theorem possible_iff_exists_assigned : ability.possible action kind = true ↔
    ∃ assigned, Rule.verdict (Rule.holding assigned (ability.rulesFor action kind)).getLast? =
      true := by
  constructor
  · intro h
    obtain ⟨earlier, rule, later, hrules, hallow, hlater⟩ := possible_eq_true_iff.mp h
    -- only the condition of the allow rule itself holds
    refine ⟨(· == earlier.length), ?_⟩
    rw [hrules, Rule.getLast?_holding_of_alone fun other hother => ?_, Rule.verdict, hallow]
    · rfl
    · have hdeclines := hlater other hother
      cases hcondition : other.condition <;> simp_all [Rule.decidesKind]
  · rintro ⟨assigned, hverdict⟩
    rcases hlast : (Rule.holding assigned (ability.rulesFor action kind)).getLast? with _ | rule
    · simp [hlast, Rule.verdict] at hverdict
    · obtain ⟨earlier, later, hrules, hlater⟩ := Rule.exists_of_getLast?_holding hlast
      refine possible_of_conditional_later hrules ?_ hlater
      simpa [hlast, Rule.verdict] using hverdict

/-! ### What is not possible is refused -/

/-- An action that is not possible is refused on every object, unless a rule meets data that it
cannot look into. -/
theorem check_of_not_possible (h : ability.possible action kind = false) :
    ability.check action kind entity = .ok false ∨
      ∃ fault, ability.check action kind entity = .error fault ∧
        ∃ rule ∈ ability.rulesFor action kind, rule.meets entity = .error fault := by
  rcases hcheck : ability.check action kind entity with fault | _ | _
  · refine .inr ⟨fault, rfl, ?_⟩
    rw [check] at hcheck
    obtain ⟨rule, hrule, hfault⟩ :=
      Rule.exists_of_firstDeciding_eq_error (map_eq_error.mp hcheck)
    exact ⟨rule, List.mem_reverse.mp hrule, hfault⟩
  · exact .inl rfl
  · rw [possible_of_check hcheck] at h
    cases h

/-- A filter that is false of a row stays so under a deny rule, -/
theorem eval_refine_of_inverted (hinverted : rule.inverted = true)
    (hfilter : filter.eval row = some false) (hrefined : refine kind filter rule = .ok refined) :
    refined.eval row = some false := by
  rw [refine] at hrefined
  cases hcondition : rule.condition with
  | none =>
    rw [hcondition, hinverted] at hrefined
    obtain rfl := Except.ok.inj hrefined
    rfl
  | some condition =>
    rw [hcondition] at hrefined
    obtain ⟨clause, -, rfl⟩ := map_eq_ok.mp hrefined
    rw [if_pos hinverted, Filter.eval_conjunction, Filter.evalAll_cons, Filter.evalAll_cons,
      Filter.evalAll_nil, hfilter, Truth.and_true, Truth.and_false]

/-- and the fold of rules that allow nothing on the kind is false of every row. The rule that has
the last word about the kind, if there is one, replaces the filter by a false one, and those after
it deny. -/
theorem eval_of_foldlM_refine {rules : List Rule}
    (h : Rule.verdict (rules.reverse.find? Rule.decidesKind) = false)
    (hfilter : rules.foldlM (refine kind) (.constant false) = .ok filter) :
    filter.eval row = some false := by
  induction rules using List.reverseRecOn generalizing filter with
  | nil =>
    obtain rfl := Except.ok.inj hfilter
    rfl
  | append_singleton rules rule ih =>
    rw [List.foldlM_append] at hfilter
    obtain ⟨before, hbefore, hrule⟩ := bind_eq_ok.mp hfilter
    replace hrule : refine kind before rule = .ok filter := by simpa using hrule
    rw [List.reverse_append, List.reverse_singleton, List.singleton_append] at h
    by_cases hdecides : rule.decidesKind = true
    · rw [List.find?_cons_of_pos hdecides, Rule.verdict, Bool.not_eq_false'] at h
      have hcondition : rule.condition = none := by simpa [Rule.decidesKind, h] using hdecides
      rw [refine, hcondition, h] at hrule
      obtain rfl := Except.ok.inj hrule
      rfl
    · rw [List.find?_cons_of_neg hdecides] at h
      refine eval_refine_of_inverted ?_ (ih h hbefore) hrule
      simp_all [Rule.decidesKind]

/-- A fold of rules fails at a condition that cannot be written. -/
theorem exists_of_foldlM_refine_eq_error {rules : List Rule}
    (h : rules.foldlM (refine kind) filter = .error fault) :
    ∃ rule ∈ rules, ∃ condition, rule.condition = some condition ∧
      condition.filter kind = .error fault := by
  induction rules generalizing filter with
  | nil => cases h
  | cons rule rest ih =>
    rw [List.foldlM_cons] at h
    rcases bind_eq_error.mp h with hrule | ⟨refined, -, hrest⟩
    · rw [refine] at hrule
      cases hcondition : rule.condition with
      | none => simp [hcondition] at hrule
      | some condition =>
        rw [hcondition] at hrule
        exact ⟨rule, List.mem_cons_self, condition, hcondition, map_eq_error.mp hrule⟩
    · obtain ⟨other, hother, hcondition⟩ := ih hrest
      exact ⟨other, List.mem_cons_of_mem _ hother, hcondition⟩

/-- **The filter for what is not possible** is false of every row. -/
theorem eval_filter_of_not_possible (h : ability.possible action kind = false)
    (hfilter : ability.filter action kind = .ok filter) : filter.eval row = some false :=
  eval_of_foldlM_refine h hfilter

/-- No store finds anything with it, -/
theorem accessible_of_not_possible {store : Store} {found : List Entity}
    (h : ability.possible action kind = false)
    (hfound : store.accessible ability action kind = .ok found) : found = [] := by
  obtain ⟨-, -, hfound⟩ := bind_eq_ok.mp hfound
  obtain ⟨filter, hfilter, hselect⟩ := bind_eq_ok.mp hfound
  have hnone : ∀ row, filter.selects row = false := fun row => by
    rw [Filter.selects, eval_filter_of_not_possible h hfilter]
    rfl
  obtain ⟨-, -, hselect⟩ := bind_eq_ok.mp hselect
  dsimp only at hselect
  split at hselect
  · cases hselect
  · obtain rfl := Except.ok.inj hselect
    exact List.filter_eq_nil_iff.mpr fun row _ => by simp [hnone row]

/-- and a store answers so if the conditions render on its rows and its engine carries out the
search. -/
theorem accessible_eq_nil_of_not_possible {store : Store} (hopen : store.isOpen = true)
    (hrenders : ∀ rule ∈ ability.rulesFor action kind, ∀ condition,
      rule.condition = some condition → condition.Renders kind (store.ofKind kind))
    (h : ability.possible action kind = false) :
    ∃ filter, ability.filter action kind = .ok filter ∧
      (store.engine.CarriesOut filter (store.ofKind kind) →
        store.accessible ability action kind = .ok []) := by
  obtain ⟨filter, hfilter, htaken, -⟩ := exists_filter hrenders
  refine ⟨filter, hfilter, fun hcarries => ?_⟩
  have hfound := accessible_eq_select hopen hfilter
  rw [(Store.select_eq_ok_iff hopen).mpr ⟨htaken, hcarries, rfl⟩] at hfound
  rw [hfound, accessible_of_not_possible h hfound]

/-- **A kind-level answer is exact.** An action is possible on a kind exactly when the conditions of
the rules about it, each occurrence on its own, can come out so that the last rule that holds
allows. What is allowed on an object is therefore possible on its kind; and what is not possible
is refused on every object, unless a rule meets data it cannot look into, and selected from no
store: its filter, which can be written if all the conditions can, is false of every row. -/
theorem possible_exact :
    (ability.possible action kind = true ↔ ∃ assigned,
      Rule.verdict (Rule.holding assigned (ability.rulesFor action kind)).getLast? = true) ∧
    (∀ entity, ability.check action kind entity = .ok true →
      ability.possible action kind = true) ∧
    (ability.possible action kind = false →
      (∀ entity, ability.check action kind entity = .ok false ∨
        ∃ fault, ability.check action kind entity = .error fault ∧
          ∃ rule ∈ ability.rulesFor action kind, rule.meets entity = .error fault) ∧
      (∀ filter, ability.filter action kind = .ok filter →
        ∀ row, filter.eval row = some false) ∧
      (∀ fault, ability.filter action kind = .error fault →
        ∃ rule ∈ ability.rulesFor action kind, ∃ condition, rule.condition = some condition ∧
          condition.filter kind = .error fault) ∧
      ∀ store : Store,
        (∀ found, store.accessible ability action kind = .ok found → found = []) ∧
        (store.isOpen = true →
          (∀ rule ∈ ability.rulesFor action kind, ∀ condition, rule.condition = some condition →
            condition.Renders kind (store.ofKind kind)) →
          ∃ filter, ability.filter action kind = .ok filter ∧
            (store.engine.CarriesOut filter (store.ofKind kind) →
              store.accessible ability action kind = .ok []))) :=
  ⟨possible_iff_exists_assigned, fun _ => possible_of_check, fun h =>
    ⟨fun _ => check_of_not_possible h, fun _ hfilter _ => eval_filter_of_not_possible h hfilter,
      fun _ => exists_of_foldlM_refine_eq_error, fun _ =>
        ⟨fun _ => accessible_of_not_possible h, fun hopen hrenders =>
          accessible_eq_nil_of_not_possible hopen hrenders h⟩⟩⟩

/-- An allow rule and a deny rule with one condition: they allow nothing, but since each occurrence
comes out on its own, the action stays possible. With a deny rule without a condition between
them it is not, and the filter is false of every row. -/
theorem possible_exact_sameCondition :
    let core : Condition := .fieldEquals "core" (.value (.flag true))
    let allowing : Rule := { action := .read, kind := .form, condition := core }
    let denying : Rule := { allowing with inverted := true }
    let twofold : Ability := { rules := [allowing, denying] }
    let closed : Ability := { rules := [allowing, { denying with condition := none }, denying] }
    let form : Entity := .form { core := .flag true }
    twofold.check .read .form form = .ok false ∧
      (∃ assigned,
        Rule.verdict (Rule.holding assigned (twofold.rulesFor .read .form)).getLast? = true) ∧
      closed.possible .read .form = false ∧
      (∀ entity, closed.check .read .form entity ≠ .ok true) ∧
      ∃ filter, closed.filter .read .form = .ok filter ∧
        ∀ row, filter.eval row = some false := by
  intro core allowing denying twofold closed form
  obtain ⟨-, hallows, hrefuses⟩ := @possible_exact closed .read .form
  have hclosed : closed.possible .read .form = false := by decide
  refine ⟨toOption_eq_some_iff.mp (by decide +kernel), possible_exact.1.mp (by decide), hclosed,
    fun entity hcheck => ?_, ?_⟩
  · exact absurd (hallows entity hcheck) (by simp [hclosed])
  · have hwritten : (closed.filter .read .form).toOption.isSome = true := by decide +kernel
    obtain ⟨filter, hfilter⟩ := Option.isSome_iff_exists.mp hwritten
    rw [toOption_eq_some_iff] at hfilter
    exact ⟨filter, hfilter, (hrefuses hclosed).2.1 filter hfilter⟩

end Ability

end Clearance
