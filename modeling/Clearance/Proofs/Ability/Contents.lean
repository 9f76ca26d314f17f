import Clearance.Proofs.Ability.Borrowing
import Clearance.Proofs.Ability.Growth

/-!
# Contents one after the other

An ability is extended for contents one by one, each time from what it has become, and a
workflow is two things: a content, which is displayed on pages, and something that lends to the
contents of its steps. To have extended the ability for a workflow first could thus make a
difference to the contents of its steps.

It does not, if no step displays a workflow (`Clearance.Ability.contents_in_any_order`). What
lends to the workflow is reached from a page that displays it, and this page is directly above
the workflow. So it is above whatever the workflow is above
(`Clearance.Ability.isAbove_of_standsFor`), and lends to the contents of the steps by itself.

Hence what an ability allows after any number of contents can be told from the ability at the
beginning (`Clearance.Ability.Receives`), by membership in the list: neither the order nor a
repetition shows.
-/

namespace Clearance.Ability

open Outcome

variable {store : Store} {ability before extended : Ability} {contents done : List Entity}
  {content entity lender higher : Entity} {action : Action} {kind : Kind}

/-! ### What is received -/

/-- An ability **receives** an action on an object, judged as one of a kind, from what is above
some contents: one of them stands for the object and is refused the action, and something above
lends it. -/
def Receives (ability : Ability) (store : Store) (contents : List Entity) (action : Action)
    (kind : Kind) (entity : Entity) : Prop :=
  ∃ content ∈ contents, content.StandsFor kind entity ∧ action ∈ Action.lendable ∧
    ability.allows action content = .ok false ∧
    ∃ lender, IsAbove store content lender ∧ ability.Lends action lender

theorem Receives.append_left (h : ability.Receives store done action kind entity) :
    ability.Receives store (done ++ contents) action kind entity := by
  obtain ⟨content, hcontent, hreceives⟩ := h
  exact ⟨content, List.mem_append_left _ hcontent, hreceives⟩

/-- It depends on which contents there are. -/
theorem receives_congr {others : List Entity}
    (h : ∀ content, content ∈ others ↔ content ∈ contents) :
    ability.Receives store others action kind entity ↔
      ability.Receives store contents action kind entity := by
  simp only [Receives, h]

/-- What stands for an object receives for what the object stands for. -/
theorem Receives.trans {other : Entity} (h : ability.Receives store contents action content.kind
    content) (hstands : content.StandsFor kind other) :
    ability.Receives store contents action kind other := by
  obtain ⟨first, hfirst, hfirstStands, hreceives⟩ := h
  exact ⟨first, hfirst, hfirstStands.trans hstands, hreceives⟩

/-- An ability that has been **given** what it receives for some contents: this is allowed now,
and everything else is decided as it was. -/
structure IsGiven (ability : Ability) (store : Store) (contents : List Entity)
    (extended : Ability) : Prop where
  /-- The principal is the same. -/
  principal : extended.principal = ability.principal
  /-- What is received is allowed. -/
  received : ∀ {action kind entity}, ability.Receives store contents action kind entity →
    extended.check action kind entity = .ok true
  /-- Everything else is decided as before. -/
  others : ∀ {action kind entity}, ¬ ability.Receives store contents action kind entity →
    extended.check action kind entity = ability.check action kind entity

namespace IsGiven

theorem refl (ability : Ability) : ability.IsGiven store [] ability where
  principal := rfl
  received h := by
    obtain ⟨content, hcontent, -⟩ := h
    cases hcontent
  others _ := rfl

/-- What is given depends on which contents there are. -/
theorem congr {others : List Entity} (h : ability.IsGiven store others extended)
    (hsame : ∀ content, content ∈ others ↔ content ∈ contents) :
    ability.IsGiven store contents extended where
  principal := h.principal
  received hreceives := h.received ((receives_congr hsame).mpr hreceives)
  others hnot := h.others (mt (receives_congr hsame).mp hnot)

/-- Two abilities that have been given the same decide alike. -/
theorem check_eq {again : Ability} (h : ability.IsGiven store contents extended)
    (hagain : ability.IsGiven store contents again) :
    again.check action kind entity = extended.check action kind entity := by
  by_cases hreceives : ability.Receives store contents action kind entity
  · rw [h.received hreceives, hagain.received hreceives]
  · rw [h.others hreceives, hagain.others hreceives]

/-- An answer that is not given is an old one. -/
theorem check_eq_of_ne (h : ability.IsGiven store contents extended)
    (hne : extended.check action kind entity ≠ .ok true) :
    extended.check action kind entity = ability.check action kind entity :=
  h.others fun hreceives => hne (h.received hreceives)

/-- What lends still does. -/
theorem lends (h : ability.IsGiven store contents extended) (hlends : ability.Lends action lender) :
    extended.Lends action lender := by
  rw [Lends, h.principal]
  rw [Lends] at hlends
  split at hlends
  · next hkind => rwa [if_pos hkind]
  · next hkind =>
    rw [if_neg hkind]
    by_cases hreceives : ability.Receives store contents action lender.kind lender
    · exact h.received hreceives
    · exact (h.others hreceives).trans hlends

/-- What lends now lent before, or has received the action itself. -/
theorem lends_or_receives (h : ability.IsGiven store contents extended)
    (hlends : extended.Lends action lender) : ability.Lends action lender ∨
      ability.Receives store contents action lender.kind lender := by
  rw [Lends, h.principal] at hlends
  rw [Lends]
  split at hlends
  · next hkind => exact .inl (by rwa [if_pos hkind])
  · next hkind =>
    rw [if_neg hkind]
    by_cases hreceives : ability.Receives store contents action lender.kind lender
    · exact .inr hreceives
    · exact .inl ((h.others hreceives).symm.trans hlends)

end IsGiven

/-! ### Workflows that lend -/

/-- **What is above a workflow is above what the workflow is above.** A workflow that a content
stands for is displayed on pages only, and these are directly above it. -/
theorem isAbove_of_standsFor
    (hsteps : ∀ step ∈ store.entities, step.kind = .step → ∀ workflow ∈ store.entities,
      workflow.kind = .workflow → Store.displays workflow.id step = false)
    (habove : IsAbove store entity lender) (hkind : content.kind ∈ Kind.content)
    (hstands : content.StandsFor lender.kind lender) (hhigher : IsAbove store content higher) :
    IsAbove store entity higher := by
  obtain ⟨container, hcontainer, hdisplays, hreach⟩ := habove
  obtain ⟨upper, hupper, hupperDisplays, hupperReach⟩ := hhigher
  have hstored := hreach.stored hcontainer
  have hcontaining : lender.kind.isContaining := hreach.isContaining
    ((isContaining_of_displays hdisplays).elim (fun h => .inr (.inr (.inl h))) .inl)
  -- of the contents only workflows lend
  have hworkflow : lender.kind = .workflow := by
    have hcontent : ∀ other : Kind, lender.kind = other → other ∈ Kind.content :=
      fun other h => h ▸ hstands.1 ▸ hkind
    rcases hcontaining with h | h | h | h
    · exact absurd (hcontent _ h) (by decide)
    · exact h
    · exact absurd (hcontent _ h) (by decide)
    · exact absurd (hcontent _ h) (by decide)
  rw [← hstands.2.1] at hupperDisplays
  have hpage : upper.kind = .page := by
    refine (isContaining_of_displays hupperDisplays).resolve_right fun hstep => ?_
    cases hupperDisplays.symm.trans (hsteps upper hupper hstep lender hstored hworkflow)
  have hbelow : store.IsBelow lender upper := by
    cases lender with
    | workflow listed => exact .page hupper hpage hupperDisplays
    | _ => exact Kind.noConfusion hworkflow
  exact ⟨container, hcontainer, hdisplays, hreach.trans (.head hbelow hupperReach)⟩

/-! ### One content after others -/

section Contents

variable (hopen : store.isOpen = true) (hkeyed : store.IsKeyed)

include hopen hkeyed

/-- What an extension for a content borrows comes from what is above the content. -/
theorem exists_borrows_above (h : before.extendForContent store content none = .ok extended) :
    ∃ lent : List Action, extended = before.extend (lent.map (ruleForOne content)) ∧
      (∀ action ∈ lent, action ∈ Action.lendable ∧ before.allows action content = .ok false ∧
        ∃ lender, IsAbove store content lender ∧ before.Lends action lender) ∧
      ∀ action ∈ Action.lendable, action ∉ lent → before.allows action content = .ok true ∨
        ∀ lender, IsAbove store content lender → ¬ before.Lends action lender := by
  rw [extendForContent_eq_borrowFor] at h
  obtain ⟨lent, rfl, hlent⟩ := exists_borrows h
  have hvisits := visits_unnamed hopen hkeyed content
  refine ⟨lent, rfl, fun action haction => ?_, fun action => hlent.allows_or_not_lends hvisits⟩
  obtain ⟨hlendable, hrefused, -⟩ := hlent.added action haction
  exact ⟨hlendable, hrefused, hlent.exists_lends hvisits haction⟩

/-- **One more content** gives what is received for it from the beginning. -/
theorem IsGiven.extendForContent
    (hsteps : ∀ step ∈ store.entities, step.kind = .step → ∀ workflow ∈ store.entities,
      workflow.kind = .workflow → Store.displays workflow.id step = false)
    (hkinds : ∀ content ∈ done, content.kind ∈ Kind.content)
    (hgiven : ability.IsGiven store done before)
    (h : before.extendForContent store content none = .ok extended) :
    ability.IsGiven store (done ++ [content]) extended := by
  have hgrows := grows_of_appends (appends_of_extendForContent h)
  obtain ⟨lent, rfl, hlent, hothers⟩ := exists_borrows_above hopen hkeyed h
  have hmanage : ∀ action ∈ lent, action ≠ .manage := by
    rintro action haction rfl
    exact absurd (hlent _ haction).1 (by decide)
  refine ⟨hgrows.principal.trans hgiven.principal, fun {action kind entity} hreceives => ?_,
    fun {action kind entity} hnot => ?_⟩
  · obtain ⟨first, hfirst, hstands, hlendable, hrefused, lender, habove, hlends⟩ := hreceives
    rcases List.mem_append.mp hfirst with hdone | hlast
    · exact hgrows.allowed (hgiven.received
        ⟨first, hdone, hstands, hlendable, hrefused, lender, habove, hlends⟩)
    · obtain rfl := List.mem_singleton.mp hlast
      by_cases hmem : action ∈ lent
      · rw [check_borrowed hmanage, if_pos ⟨hmem, hstands⟩]
      · -- something lends the action, so it was allowed before, and then it was received
        have hallowed : before.allows action first = .ok true :=
          (hothers action hlendable hmem).resolve_right fun hnone =>
            hnone lender habove (hgiven.lends hlends)
        have hreceives : ability.Receives store done action first.kind first := by
          by_contra hnot
          cases (hgiven.others hnot).symm.trans hallowed |>.symm.trans hrefused
        exact hgrows.allowed (hgiven.received (hreceives.trans hstands))
  · rw [check_borrowed hmanage, if_neg]
    · exact hgiven.others fun hdone => hnot hdone.append_left
    · rintro ⟨hmem, hstands⟩
      obtain ⟨hlendable, hrefused, lender, habove, hlends⟩ := hlent action hmem
      have hrefusedBefore : ability.allows action content = .ok false := by
        rw [allows] at hrefused ⊢
        rw [← hgiven.check_eq_of_ne (by simp [hrefused]), hrefused]
      have hreceives : ∀ higher, IsAbove store content higher → ability.Lends action higher →
          ability.Receives store (done ++ [content]) action kind entity := fun higher hhigher h =>
        ⟨content, by simp, hstands, hlendable, hrefusedBefore, higher, hhigher, h⟩
      rcases hgiven.lends_or_receives hlends with h | ⟨first, hfirst, hfirstStands, -, -, higher,
        hhigher, h⟩
      · exact hnot (hreceives lender habove h)
      · -- the lender has received the action from something above the content
        exact hnot (hreceives higher
          (isAbove_of_standsFor hsteps habove (hkinds first hfirst) hfirstStands hhigher) h)

/-- It fails with a fault that the ability has had from the beginning. -/
theorem IsGiven.exists_of_extendForContent_eq_error {error : AccessError}
    (hgiven : ability.IsGiven store done before)
    (h : before.extendForContent store content none = .error error) :
    ∃ fault, error = .fault fault ∧ ∃ action ∈ Action.lendable, ∃ entity,
      ability.allows action entity = .error fault ∧
        (entity = content ∨ IsAbove store content entity ∧ entity.kind ≠ .application) := by
  have hfault : ∀ {action entity fault}, before.allows action entity = .error fault →
      ability.allows action entity = .error fault := by
    intro action entity fault herror
    rw [allows] at herror ⊢
    rw [← hgiven.check_eq_of_ne (by simp [herror]), herror]
  obtain ⟨fault, rfl, action, haction, entity, hallows, hwhere⟩ :=
    fault_of_extendForContent hopen hkeyed h
  exact ⟨fault, rfl, action, haction, entity, hfault hallows, hwhere⟩

/-! ### Any number of contents -/

section Run

variable (hsteps : ∀ step ∈ store.entities, step.kind = .step → ∀ workflow ∈ store.entities,
  workflow.kind = .workflow → Store.displays workflow.id step = false)

include hsteps

/-- **Any number of contents** give what is received for them from the beginning. -/
theorem IsGiven.extendBy : ∀ {done before}, ability.IsGiven store done before →
    (∀ content ∈ done ++ contents, content.kind ∈ Kind.content) →
    before.extendBy (contents.map fun content => .content store content none) = .ok extended →
    ability.IsGiven store (done ++ contents) extended := by
  induction contents with
  | nil =>
    intro done before hgiven _ h
    obtain rfl := Except.ok.inj h
    rwa [List.append_nil]
  | cons first rest ih =>
    intro done before hgiven hkinds h
    obtain ⟨next, hnext, hrest⟩ := bind_eq_ok.mp h
    rw [List.append_cons] at hkinds ⊢
    refine ih (hgiven.extendForContent hopen hkeyed hsteps (fun content hcontent => ?_) hnext)
      hkinds hrest
    exact hkinds content (by simp [hcontent])

/-- They fail with a fault that the ability has had from the beginning. -/
theorem IsGiven.exists_of_extendBy_eq_error {error : AccessError} :
    ∀ {done before}, ability.IsGiven store done before →
    (∀ content ∈ done ++ contents, content.kind ∈ Kind.content) →
    before.extendBy (contents.map fun content => .content store content none) = .error error →
    ∃ fault, error = .fault fault ∧ ∃ action ∈ Action.lendable, ∃ entity,
      ability.allows action entity = .error fault ∧ ∃ content ∈ contents,
        entity = content ∨ IsAbove store content entity ∧ entity.kind ≠ .application := by
  induction contents with
  | nil =>
    intro done before _ _ h
    cases h
  | cons first rest ih =>
    intro done before hgiven hkinds h
    rcases bind_eq_error.mp h with h | ⟨next, hnext, hrest⟩
    · obtain ⟨fault, rfl, action, haction, entity, hallows, hentity⟩ :=
        hgiven.exists_of_extendForContent_eq_error hopen hkeyed h
      exact ⟨fault, rfl, action, haction, entity, hallows, first, List.mem_cons_self, hentity⟩
    · rw [List.append_cons] at hkinds
      have hnext := hgiven.extendForContent hopen hkeyed hsteps
        (fun content hcontent => hkinds content (by simp [hcontent])) hnext
      obtain ⟨fault, rfl, action, haction, entity, hallows, content, hcontent, hentity⟩ :=
        ih hnext hkinds hrest
      exact ⟨fault, rfl, action, haction, entity, hallows, content,
        List.mem_cons_of_mem _ hcontent, hentity⟩

/-- **On each of the contents** it is as if the ability was extended for it alone. -/
theorem IsGiven.allows_eq_alone {alone : Ability} (hgiven : ability.IsGiven store contents extended)
    (hcontent : content ∈ contents)
    (halone : ability.extendForContent store content none = .ok alone) (action : Action) :
    extended.allows action content = alone.allows action content := by
  have hgrows := grows_of_appends (appends_of_extendForContent halone)
  have hgivenAlone : ability.IsGiven store [content] alone :=
    (IsGiven.refl ability).extendForContent hopen hkeyed hsteps (by simp) halone
  by_cases hreceives : ability.Receives store contents action content.kind content
  · rw [allows, hgiven.received hreceives]
    obtain ⟨first, -, ⟨-, hid, hsome⟩, hlendable, -, lender, habove, hlends⟩ := hreceives
    rw [IsAbove, ← hid] at habove
    obtain ⟨lent, -, hlent, hothers⟩ := exists_borrows_above hopen hkeyed halone
    symm
    by_cases hmem : action ∈ lent
    · have hrefused := (hlent action hmem).2.1
      exact hgivenAlone.received ⟨content, List.mem_singleton_self content, .refl (hid ▸ hsome),
        hlendable, hrefused, lender, habove, hlends⟩
    · -- something lends the action, so it was allowed from the beginning
      exact hgrows.allowed ((hothers action hlendable hmem).resolve_right fun hnone =>
        hnone lender habove hlends)
  · rw [allows, hgiven.others hreceives]
    refine (hgivenAlone.others fun hsingle => hreceives ?_).symm
    obtain ⟨first, hfirst, hrest⟩ := hsingle
    obtain rfl := List.mem_singleton.mp hfirst
    exact ⟨first, hcontent, hrest⟩

/-- **Contents may come in any order.** If no step displays a workflow, an ability that is
extended for some contents, each through all its containers, decides about everything in the
same way whatever their order and however often each of them comes. On each of the contents it
decides as an ability that is extended for this content alone, and about what none of them
stands for it decides as before. It is extended unless the ability itself has a fault on one of
the contents or on something above one. -/
theorem contents_in_any_order (hkinds : ∀ content ∈ contents, content.kind ∈ Kind.content) :
    (∀ error,
      ability.extendBy (contents.map fun content => .content store content none) = .error error →
      ∃ fault, error = .fault fault ∧ ∃ action ∈ Action.lendable, ∃ entity,
        ability.allows action entity = .error fault ∧ ∃ content ∈ contents,
          entity = content ∨ IsAbove store content entity ∧ entity.kind ≠ .application) ∧
    ∀ extended,
      ability.extendBy (contents.map fun content => .content store content none) = .ok extended →
      (∀ (others : List Entity) again, (∀ content, content ∈ others ↔ content ∈ contents) →
        ability.extendBy (others.map fun content => .content store content none) = .ok again →
        ∀ action kind entity,
          again.check action kind entity = extended.check action kind entity) ∧
      (∀ content ∈ contents, ∀ alone,
        ability.extendForContent store content none = .ok alone →
        ∀ action, extended.allows action content = alone.allows action content) ∧
      ∀ action kind entity, (∀ content ∈ contents, ¬ content.StandsFor kind entity) →
        extended.check action kind entity = ability.check action kind entity := by
  have hgive : ∀ {contents extended}, (∀ content ∈ contents, content.kind ∈ Kind.content) →
      ability.extendBy (contents.map fun content => .content store content none) = .ok extended →
      ability.IsGiven store contents extended :=
    fun hkinds h => (IsGiven.refl ability).extendBy hopen hkeyed hsteps hkinds h
  refine ⟨fun error h => (IsGiven.refl ability).exists_of_extendBy_eq_error hopen hkeyed hsteps
    hkinds h, fun extended h => ?_⟩
  have hgiven := hgive hkinds h
  refine ⟨fun others again hsame hagain action kind entity => ?_,
    fun content hcontent alone halone action => ?_, fun action kind entity hnone => ?_⟩
  · have hothers : ability.IsGiven store others again :=
      hgive (fun content hcontent => hkinds content ((hsame content).mp hcontent)) hagain
    exact hgiven.check_eq (hothers.congr hsame)
  · exact hgiven.allows_eq_alone hopen hkeyed hsteps hcontent halone action
  · refine hgiven.others ?_
    rintro ⟨content, hcontent, hstands, -⟩
    exact hnone content hcontent hstands

end Run

end Contents

/-- A workflow and a dashboard that a step of it displays: in either order both are read by
those who may see the application around them. -/
theorem contents_in_any_order_workflow :
    let workflow : Entity := .workflow { id := some ⟨1, by decide⟩ }
    let dashboard : Entity := .dashboard { id := some ⟨5, by decide⟩ }
    let page : Entity :=
      .page { id := some ⟨2, by decide⟩ } (some ⟨4, by decide⟩) { id := workflow.id }
    let step : Entity := .step { id := some ⟨3, by decide⟩ } workflow.id { id := dashboard.id }
    let application : Entity :=
      .application
        { id := some ⟨4, by decide⟩, grants := [{ type := "canSee", roleId := default }] } .null
    let store : Store := { entities := [workflow, dashboard, page, step, application] }
    let ability : Ability :=
      { rules := [], principal := some { userId := default, roles := [{ id := default }] } }
    ∃ extended again alone,
      ability.extendBy ([workflow, dashboard].map fun content => .content store content none) =
        .ok extended ∧
      ability.extendBy ([dashboard, workflow, dashboard].map fun content =>
        .content store content none) = .ok again ∧
      ability.extendForContent store dashboard none = .ok alone ∧
      (∀ action kind entity, again.check action kind entity = extended.check action kind entity) ∧
      (∀ action, extended.allows action dashboard = alone.allows action dashboard) ∧
      extended.allows .read workflow = .ok true ∧ extended.allows .read dashboard = .ok true := by
  intro workflow dashboard page step application store ability
  have hkeyed : store.IsKeyed :=
    { identified := by simp [store, workflow, dashboard, page, step, application, Entity.id]
      distinct := by simp [store, workflow, dashboard, page, step, application, Entity.id] }
  have hsteps : ∀ step ∈ store.entities, step.kind = .step → ∀ workflow ∈ store.entities,
      workflow.kind = .workflow → Store.displays workflow.id step = false := by
    simp [store, workflow, dashboard, page, step, application, Entity.kind, Entity.id,
      Store.displays]
  have hkinds : ∀ content ∈ [workflow, dashboard], content.kind ∈ Kind.content := by decide
  have hcomputed : ((ability.extendBy
      ([workflow, dashboard].map fun content => .content store content none)).bind fun extended =>
        (ability.extendBy ([dashboard, workflow, dashboard].map fun content =>
          .content store content none)).bind fun _ =>
            (ability.extendForContent store dashboard none).map fun _ =>
              (extended.allows .read workflow).toOption == some true &&
                (extended.allows .read dashboard).toOption == some true).toOption = some true := by
    decide +kernel
  obtain ⟨extended, hextended, h⟩ := bind_eq_ok.mp (toOption_eq_some_iff.mp hcomputed)
  obtain ⟨again, hagain, h⟩ := bind_eq_ok.mp h
  obtain ⟨alone, halone, h⟩ := map_eq_ok.mp h
  rw [Bool.and_eq_true, beq_iff_eq, beq_iff_eq] at h
  obtain ⟨-, horder⟩ := contents_in_any_order rfl hkeyed hsteps hkinds
  obtain ⟨hsame, hsingle, -⟩ := horder extended hextended
  have hmembers : ∀ content, content ∈ [dashboard, workflow, dashboard] ↔
      content ∈ [workflow, dashboard] := by
    intro content
    simp only [List.mem_cons, List.not_mem_nil, or_false]
    exact ⟨fun hmem => hmem.elim .inr id, fun hmem => hmem.elim (.inr ∘ .inl) .inl⟩
  exact ⟨extended, again, alone, hextended, hagain, halone, hsame _ again hmembers hagain,
    hsingle dashboard (List.mem_cons_of_mem _ List.mem_cons_self) alone halone,
    toOption_eq_some_iff.mp h.1, toOption_eq_some_iff.mp h.2⟩

end Clearance.Ability
