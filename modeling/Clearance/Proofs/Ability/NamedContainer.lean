import Clearance.Proofs.Ability.Borrowing
import Clearance.Proofs.Identifier.Text

/-!
# Containers that are named

Whoever extends an ability for a content may name the container that it is reached through.
Then that container alone is asked, and otherwise every page and step that displays the content.
One expects that naming a container narrows what is borrowed, since it only leaves out the
others. It does for a container that displays the content. But nothing looks at what the named
container displays, so that one that displays something else, or nothing, lends as well.

What an extension decides depends on what its chains visit
(`Clearance.Ability.allows_borrowFor_iff`). Without a container named this is what is above the
content, and otherwise what is reached from the container (`Clearance.Ability.visits_named`).
The two are compared: a container *lends astray* (`Clearance.Ability.LendsAstray`) when something
reached from it lends an action that nothing above the content lends. This is all that naming
it adds (`Clearance.Ability.extendForContent_named`), and no container that displays the content
does (`Clearance.Ability.LendsAstray.not_displays`).
-/

namespace Clearance

open Outcome

namespace Ability

variable {ability extended named plain : Ability} {action : Action}
  {entity other content container : Entity} {store : Store}
  {source : Except AccessError (List (List Entity))} {visited : Entity → Prop}

/-! ### With and without a container named -/

/-- With a container named, what is reached from it is visited, whatever it displays. -/
theorem visits_named (hopen : store.isOpen = true) (hkeyed : store.IsKeyed)
    (hcontainer : container ∈ store.entities)
    (hkind : container.kind = .page ∨ container.kind = .step) (content : Entity) :
    Visits ((contentWalks store content (some container)).map (·.map Store.Walk.visited))
      (store.Reaches container) := by
  have hcontaining : container.kind.isContaining :=
    hkind.elim (fun hpage => .inr (.inr (.inl hpage))) .inl
  obtain ⟨walk, hwalk, hvisited⟩ := Store.exists_walk hopen hkeyed hcontainer hcontaining
  have hwalks : contentWalks store content (some container) = .ok [walk] :=
    mapM_cons_eq_ok.mpr ⟨walk, [], hwalk, rfl, rfl⟩
  refine ⟨[walk.visited], by rw [hwalks]; rfl, fun entity => ?_⟩
  rw [← hvisited entity]
  simp

/-- A container that **lends an action astray** to a content: the ability refuses the action,
something reached from the container lends it, and nothing above the content does. -/
structure LendsAstray (ability : Ability) (store : Store) (content container : Entity)
    (action : Action) : Prop where
  /-- The action is refused. -/
  refused : ability.allows action content = .ok false
  /-- Rules can tell the content from others. -/
  identified : content.id.isSome = true
  /-- Something reached from the container lends the action. -/
  lent : ∃ lender, store.Reaches container lender ∧ ability.Lends action lender
  /-- Nothing above the content does. -/
  unseen : ∀ lender, IsAbove store content lender → ¬ ability.Lends action lender

/-- **A container that displays the content never lends astray**, as all that is reached from
it is above the content. -/
theorem LendsAstray.not_displays (h : ability.LendsAstray store content container action)
    (hcontainer : container ∈ store.entities) : Store.displays content.id container = false := by
  obtain ⟨lender, hreaches, hlends⟩ := h.lent
  refine Bool.eq_false_iff.mpr fun hdisplays => ?_
  exact h.unseen lender ⟨container, hcontainer, hdisplays, hreaches⟩ hlends

/-- What a named container adds to what is borrowed without naming one is lent astray. -/
theorem allows_named_not_plain_iff (hopen : store.isOpen = true) (hkeyed : store.IsKeyed)
    (hcontainer : container ∈ store.entities)
    (hkind : container.kind = .page ∨ container.kind = .step)
    (hnamed : ability.extendForContent store content (some container) = .ok named)
    (hplain : ability.extendForContent store content none = .ok plain)
    (haction : action ∈ Action.lendable) :
    named.allows action content = .ok true ∧ plain.allows action content = .ok false ↔
      ability.LendsAstray store content container action := by
  rw [extendForContent_eq_borrowFor] at hnamed hplain
  have hnamedIff := allows_borrowFor_iff (visits_named hopen hkeyed hcontainer hkind content)
    hnamed haction
  have hplainIff := allows_borrowFor_iff (visits_unnamed hopen hkeyed content) hplain haction
  constructor
  · rintro ⟨hallowed, hrefused⟩
    have hnone : ¬ plain.allows action content = .ok true := by simp [hrefused]
    rw [hplainIff, not_or] at hnone
    obtain ⟨hid, lender, hreaches, hlends⟩ := (hnamedIff.mp hallowed).resolve_left hnone.1
    refine ⟨?_, hid, ⟨lender, hreaches, hlends⟩, fun other habove hother => ?_⟩
    · -- nothing above the content lends, so the plain extension decides as the ability
      obtain ⟨lent, rfl, hlent⟩ := exists_borrows hplain
      by_cases hmem : action ∈ lent
      · exact (hlent.added action hmem).2.1
      · exact ((hlent.others action haction hmem).resolve_left hnone.1).1
    · exact hnone.2 ⟨hid, other, habove, hother⟩
  · intro h
    refine ⟨hnamedIff.mpr (.inr ⟨h.identified, h.lent⟩), ?_⟩
    obtain ⟨answer, hanswer⟩ := exists_allows_of_borrowFor hplain haction
    cases answer with
    | false => exact hanswer
    | true =>
      rcases hplainIff.mp hanswer with hallowed | ⟨-, lender, habove, hlends⟩
      · cases h.refused.symm.trans hallowed
      · exact absurd hlends (h.unseen lender habove)

/-- **What naming a container does.** With a page or a step of the store named, an ability
extended for a content allows to read, update or delete it just when it did before or something
reached from the container lends the action; about everything else it decides as before, and it
fails only with a fault that the ability has itself. In comparison with the extension for which
none is named, a container that displays the content gives nothing more. Any other adds
precisely the actions that it lends astray. -/
theorem extendForContent_named (hopen : store.isOpen = true) (hkeyed : store.IsKeyed)
    (hcontainer : container ∈ store.entities)
    (hkind : container.kind = .page ∨ container.kind = .step) :
    (∀ error, ability.extendForContent store content (some container) = .error error →
      ∃ fault, error = .fault fault ∧ ∃ action ∈ Action.lendable, ∃ other,
        ability.allows action other = .error fault ∧
          (other = content ∨ store.Reaches container other ∧ other.kind ≠ .application)) ∧
    ∀ named, ability.extendForContent store content (some container) = .ok named →
      (∀ action ∈ Action.lendable,
        named.allows action content = .ok true ↔
          ability.allows action content = .ok true ∨ content.id.isSome = true ∧
            ∃ lender, store.Reaches container lender ∧ ability.Lends action lender) ∧
      (∀ action other, action ∉ Action.lendable ∨ ¬ content.StandsFor other.kind other →
        named.allows action other = ability.allows action other) ∧
      ∀ plain, ability.extendForContent store content none = .ok plain →
        (Store.displays content.id container = true → ∀ action ∈ Action.lendable,
          named.allows action content = .ok true → plain.allows action content = .ok true) ∧
        ∀ action ∈ Action.lendable,
          named.allows action content = .ok true ∧ plain.allows action content = .ok false ↔
            ability.LendsAstray store content container action := by
  have hvisits := visits_named hopen hkeyed hcontainer hkind content
  refine ⟨fun error herror => ?_, fun named hnamed => ⟨fun action haction => ?_,
    fun action other hother => ?_, fun plain hplain => ⟨fun hdisplays action haction hallowed => ?_,
      fun action haction => ?_⟩⟩⟩
  · rw [extendForContent_eq_borrowFor] at herror
    exact fault_of_borrowFor hvisits herror
  · rw [extendForContent_eq_borrowFor] at hnamed
    exact allows_borrowFor_iff hvisits hnamed haction
  · rw [extendForContent_eq_borrowFor] at hnamed
    exact check_borrowFor_of_other hnamed fun haction =>
      hother.resolve_left fun hlendable => hlendable haction
  · have hastray := allows_named_not_plain_iff hopen hkeyed hcontainer hkind hnamed hplain haction
    rw [extendForContent_eq_borrowFor] at hplain
    obtain ⟨answer, hanswer⟩ := exists_allows_of_borrowFor hplain haction
    cases answer with
    | true => exact hanswer
    | false =>
      cases hdisplays.symm.trans ((hastray.mp ⟨hallowed, hanswer⟩).not_displays hcontainer)
  · exact allows_named_not_plain_iff hopen hkeyed hcontainer hkind hnamed hplain haction

/-- A page that displays nothing lends a dashboard astray to whoever may read the page. -/
theorem extendForContent_named_emptyPage :
    let dashboard : Entity := .dashboard { id := some 3 }
    let page : Entity := .page { id := some 4 } none {}
    let store : Store := { entities := [dashboard, page] }
    let ability : Ability := { rules := Rule.allow [.read] [.page] }
    ∃ named,
      ability.extendForContent store dashboard (some page) = .ok named ∧
      named.allows .read dashboard = .ok true ∧
      ability.LendsAstray store dashboard page .read := by
  intro dashboard page store ability
  have hkeyed : store.IsKeyed :=
    { identified := by simp [store, dashboard, page, Entity.id]
      distinct := List.pairwise_pair.mpr fun _ => by decide }
  have hnamed : ability.extendForContent store dashboard (some page) = .ok _ := rfl
  have hplain : ability.extendForContent store dashboard none = .ok _ := rfl
  obtain ⟨hexact, -, hcompared⟩ := (extendForContent_named rfl hkeyed
    (by simp [store]) (.inl rfl)).2 _ hnamed
  have hallowed := (hexact .read (by decide)).mpr (.inr ⟨rfl, page, .refl, rfl⟩)
  exact ⟨_, hnamed, hallowed,
    ((hcompared _ hplain).2 .read (by decide)).mp ⟨hallowed, rfl⟩⟩

/-- **A page that displays nothing lets a dashboard be read** that is shown nowhere, and that
nobody may read without naming the page. -/
theorem extendForContent_widened :
    let principal : Principal := { userId := 1, roles := [{ id := 2 }] }
    let dashboard : Entity := .dashboard { id := some 3 }
    let page : Entity :=
      .page { id := some 4, grants := [{ type := "canSee", roleId := 2 }] } none {}
    let store : Store := { entities := [dashboard, page] }
    ((base principal).extendForContent store dashboard (some page)).toOption.map
        (·.allows .read dashboard) = some (.ok true) ∧
      ((base principal).extendForContent store dashboard none).toOption.map
        (·.allows .read dashboard) = some (.ok false) :=
  ⟨rfl, rfl⟩

end Ability

end Clearance
