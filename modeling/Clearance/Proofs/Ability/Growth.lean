import Clearance.Proofs.Ability.Extension

/-!
# Extensions only widen

An extended ability keeps the rules it had and allows whatever was allowed before
(`Clearance.Ability.Grows`). Since the rule added last has the last word, this is not a
matter of adding rules: one of the rules about records denies. There are two reasons for
which appended rules do no harm.

* They all allow, and none of them meets a fault (`Clearance.Ability.grows_of_open`). This
  is so for what was lent, for creating pages and steps, and for features.
* They are about actions that were not possible (`Clearance.Ability.grows_of_guarded`). A
  kind-level refusal speaks for every object, so there was nothing allowed that a deny rule
  could take away. This is so for the rules about records, which deny as well.

The two together cover every way to append, and so every run of extensions.
-/

namespace Clearance.Ability

variable {ability extended : Ability}

/-- An ability that **grows** into another: that keeps the rules and the principal and
allows at least as much, on objects and on kinds. -/
structure Grows (ability extended : Ability) : Prop where
  /-- The rules are still there, in front of the new ones. -/
  rules : ability.rules <+: extended.rules
  /-- The principal is the same. -/
  principal : extended.principal = ability.principal
  /-- What was allowed on an object still is. -/
  allowed : ∀ {action : Action} {kind : Kind} {entity : Entity},
    ability.check action kind entity = .ok true → extended.check action kind entity = .ok true
  /-- What was possible on a kind still is. -/
  possible : ∀ {action : Action} {kind : Kind},
    ability.possible action kind = true → extended.possible action kind = true

theorem Grows.refl (ability : Ability) : ability.Grows ability :=
  ⟨List.prefix_rfl, rfl, id, id⟩

theorem Grows.trans {a b c : Ability} (hab : a.Grows b) (hbc : b.Grows c) : a.Grows c where
  rules := hab.rules.trans hbc.rules
  principal := hbc.principal.trans hab.principal
  allowed := hbc.allowed ∘ hab.allowed
  possible := hbc.possible ∘ hab.possible

/-! ### Why appended rules do no harm -/

variable {added : List Rule}

/-- **Rules that allow and meet no fault** do no harm: the first of them that decides
allows, and if none decides, the answer is the old one. -/
theorem grows_of_open (hallow : ∀ rule ∈ added, rule.inverted = false)
    (hmeets : ∀ rule ∈ added, ∀ entity, ∃ answer, rule.meets entity = .ok answer) :
    ability.Grows (ability.extend added) where
  rules := List.prefix_append _ _
  principal := rfl
  allowed {action kind entity} h := by
    rw [check_extend]
    cases hfirst : Rule.firstDeciding entity (added.filter (Rule.isAbout action kind)).reverse with
    | error fault =>
      -- a fault would be that of an appended rule
      obtain ⟨rule, hrule, hfault⟩ := Rule.exists_of_firstDeciding_eq_error hfirst
      obtain ⟨answer, hanswer⟩ := hmeets rule (by simp_all) entity
      rw [hanswer] at hfault
      exact absurd hfault (by simp)
    | ok answer =>
      cases answer with
      | none => exact h
      | some rule =>
        obtain ⟨earlier, later, hrules, -, -⟩ := Rule.firstDeciding_eq_some_iff.mp hfirst
        have hmem : rule ∈ (added.filter (Rule.isAbout action kind)).reverse := by
          rw [hrules]
          simp
        have := hallow rule (List.mem_filter.mp (List.mem_reverse.mp hmem)).1
        simp [this]
  possible {action kind} h := by
    rw [possible_extend]
    split
    · next rule hfind =>
      have hmem := List.mem_reverse.mp (List.mem_of_find?_eq_some hfind)
      simp [hallow rule (List.mem_filter.mp hmem).1]
    · exact h

/-- A rule about an action that is not possible is not about one that is. -/
theorem not_isAbout_of_guarded {rule : Rule} {action : Action} {kind : Kind}
    (hmanage : rule.action ≠ .manage)
    (hguard : ability.possible rule.action rule.kind = false)
    (h : ability.possible action kind = true) : rule.isAbout action kind = false := by
  refine Bool.eq_false_iff.mpr fun habout => ?_
  obtain ⟨rfl, happlies⟩ : rule.kind = kind ∧ rule.appliesTo action = true := by
    simpa [Rule.isAbout] using habout
  obtain rfl : rule.action = action := by simpa [Rule.appliesTo, hmanage] using happlies
  exact Bool.noConfusion (hguard.symm.trans h)

/-- **Rules about actions that were not possible** do no harm, even if they deny: what was
allowed on an object was possible on its kind, and none of the rules is about that. -/
theorem grows_of_guarded (hmanage : ∀ rule ∈ added, rule.action ≠ .manage)
    (hguard : ∀ rule ∈ added, ability.possible rule.action rule.kind = false) :
    ability.Grows (ability.extend added) where
  rules := List.prefix_append _ _
  principal := rfl
  allowed {action kind entity} h := by
    rw [check_extend_of_not_about fun rule hrule =>
      not_isAbout_of_guarded (hmanage rule hrule) (hguard rule hrule) (possible_of_check h)]
    exact h
  possible {action kind} h := by
    rw [possible_extend_of_not_about fun rule hrule =>
      not_isAbout_of_guarded (hmanage rule hrule) (hguard rule hrule) h]
    exact h

/-! ### Extensions -/

/-- Rules without conditions meet no fault. -/
theorem meets_of_unconditional {rule : Rule} (h : rule.condition = none) (entity : Entity) :
    rule.meets entity = .ok true := by
  rw [Rule.meets, h]

/-- **One step**: an ability grows in whichever way rules are appended to it. -/
theorem grows_of_appends (h : Appends ability extended) : ability.Grows extended := by
  cases h with
  | loan entity actions hlendable =>
    -- the rules compare identifiers, so they always answer
    refine grows_of_open ?_ ?_
    · intro rule hrule
      obtain ⟨action, -, rfl⟩ := List.mem_map.mp hrule
      rfl
    · intro rule hrule other
      obtain ⟨action, -, rfl⟩ := List.mem_map.mp hrule
      exact ⟨_, rfl⟩
  | creation kind hkind =>
    refine grows_of_open (fun rule hrule => (Rule.mem_each.mp hrule).2.2.2) ?_
    intro rule hrule entity
    exact ⟨true, meets_of_unconditional (Rule.mem_each.mp hrule).2.2.1 entity⟩
  | features principal applicationId =>
    refine grows_of_open (fun rule hrule => ?_) (fun rule hrule entity => ⟨true, ?_⟩)
    · exact (mem_featureRules hrule).2
    · exact meets_of_unconditional (mem_featureRules hrule).1 entity
  | records limit principal rules hrules =>
    -- these rules may deny, but about actions that were not possible
    refine grows_of_guarded (fun rule hrule => ?_) (fun rule hrule => ?_)
    · intro hmanage
      have := (hrules rule hrule).proper
      rw [hmanage] at this
      exact absurd this (by decide)
    · rw [(hrules rule hrule).kind]
      exact (hrules rule hrule).guarded

/-- **A whole run**: an ability grows however often rules are appended to it. -/
theorem grows_of_appendsMany (h : AppendsMany ability extended) : ability.Grows extended := by
  induction h with
  | refl => exact Grows.refl ability
  | tail _ hlast ih => exact ih.trans (grows_of_appends hlast)

/-- **Extensions only widen.** After any number of extensions, in any order, the old rules
are still in front and the principal is the same, and whatever the ability allowed on an
object or made possible on a kind, it still does. -/
theorem extendBy_only_widens {extensions : List Extension}
    (h : ability.extendBy extensions = .ok extended) :
    ability.rules <+: extended.rules ∧ extended.principal = ability.principal ∧
      (∀ (action : Action) (kind : Kind) (entity : Entity),
        ability.check action kind entity = .ok true →
          extended.check action kind entity = .ok true) ∧
      ∀ (action : Action) (kind : Kind),
        ability.possible action kind = true → extended.possible action kind = true := by
  have hgrows := grows_of_appendsMany (appendsMany_of_extendBy h)
  exact ⟨hgrows.rules, hgrows.principal, fun _ _ _ => hgrows.allowed, fun _ _ => hgrows.possible⟩

/-- Three extensions, of which one denies to read archived records, leave alone that records
may be created. -/
theorem extendBy_only_widens_creating :
    let principal : Principal := { userId := default, roles := [{ id := default }] }
    let form : Entity := .form { grants := [{ type := "canSeeRecords", roleId := default }] }
    let ability : Ability := { rules := Rule.allow [.create] [.record], principal }
    ∃ extended, ability.extendBy [.records 5 form, .features default, .forms 5 [form]] =
        .ok extended ∧ extended.rules.any Rule.inverted = true ∧
      ∀ entity, extended.check .create .record entity = .ok true := by
  intro principal form ability
  refine ⟨_, rfl, rfl, fun entity => ?_⟩
  have h : ability.extendBy [.records 5 form, .features default, .forms 5 [form]] = .ok _ := rfl
  exact (extendBy_only_widens h).2.2.1 .create .record entity rfl

end Clearance.Ability
