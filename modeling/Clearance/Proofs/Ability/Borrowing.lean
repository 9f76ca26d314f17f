import Clearance.Proofs.Ability.Lending

/-!
# Borrowing

An ability is extended for a content as it is for a page or a step: it is asked which lendable
actions are pending on the object, and if any are, something on some chains of objects is
looked for that lends them (`Clearance.Ability.borrowFor`). Only the chains differ. This file
says what an extension of this shape does, whatever the chains are.

* What it adds is told by `Clearance.Ability.Borrows`: the rules for the actions that were
  refused and have a lender. An action that is not added was allowed anyway, or there is no
  lender for it.
* It succeeds if the ability has an answer whenever it is asked
  (`Clearance.Ability.exists_borrowFor`).
* The rules decide about what the object *stands for*, that is about whatever has its kind and
  its identifier (`Clearance.Ability.check_borrowed`). An object without an identifier stands
  for nothing, not even for itself.
* What an ability that has borrowed allows is what it allowed before and what something that
  the chains *visit* lends (`Clearance.Ability.allows_borrowFor_iff`). It fails only with a
  fault of its own. So for a content it allows what something above the content lends
  (`Clearance.Ability.extendForContent_exact`).

An ability that borrows nothing for an object is *settled* on it. It is once it has borrowed
(`Clearance.Ability.settled_of_borrows`), and it remains so when it borrows for others, unless
one of these is a lender on the chains (`Clearance.Ability.settled_of_borrows_other`).
-/

namespace Clearance

open Outcome

/-- An object **stands for** whatever has its kind and its identifier. -/
def Entity.StandsFor (entity : Entity) (kind : Kind) (other : Entity) : Prop :=
  kind = entity.kind ∧ other.id = entity.id ∧ entity.id.isSome = true

instance (entity : Entity) (kind : Kind) (other : Entity) :
    Decidable (entity.StandsFor kind other) :=
  inferInstanceAs (Decidable (_ ∧ _ ∧ _))

namespace Entity.StandsFor

variable {entity other third : Entity} {kind : Kind}

theorem refl (h : entity.id.isSome = true) : entity.StandsFor entity.kind entity :=
  ⟨rfl, rfl, h⟩

theorem trans (h : entity.StandsFor other.kind other) (hother : other.StandsFor kind third) :
    entity.StandsFor kind third :=
  ⟨hother.1.trans h.1, hother.2.1.trans h.2.1, h.2.2⟩

end Entity.StandsFor

namespace Ability

variable {ability extended : Ability} {action : Action} {kind : Kind} {entity other : Entity}
  {chains : List (List Entity)} {actions lent : List Action}
  {source : Except AccessError (List (List Entity))} {visited : Entity → Prop}

/-! ### The search for a lender -/

/-- Whether something on one of some chains lends an action. -/
def findsLender (ability : Ability) (chains : List (List Entity)) (action : Action) :
    Except Fault Bool :=
  chains.anyM (·.anyM (ability.lends action))

/-- A lender that is found is on one of the chains. -/
theorem exists_lender (h : ability.findsLender chains action = .ok true) :
    ∃ chain ∈ chains, ∃ lender ∈ chain, ability.lends action lender = .ok true := by
  obtain ⟨chain, hchain, hany⟩ := anyM_eq_true h
  exact ⟨chain, hchain, anyM_eq_true hany⟩

/-- A fault that ends the search is that of something on one of the chains. -/
theorem exists_lender_eq_error {fault : Fault}
    (h : ability.findsLender chains action = .error fault) :
    ∃ chain ∈ chains, ∃ lender ∈ chain, ability.lends action lender = .error fault := by
  obtain ⟨chain, hchain, hany⟩ := anyM_eq_error h
  exact ⟨chain, hchain, anyM_eq_error hany⟩

/-- Nothing on the chains lends what no lender is found for. -/
theorem lends_of_no_lender (h : ability.findsLender chains action = .ok false)
    {chain : List Entity} (hchain : chain ∈ chains) {lender : Entity} (hlender : lender ∈ chain) :
    ability.lends action lender = .ok false :=
  anyM_eq_false (anyM_eq_false h chain hchain) lender hlender

/-- The search depends on what the objects on the chains lend. -/
theorem findsLender_congr
    (h : ∀ chain ∈ chains, ∀ lender ∈ chain,
      extended.lends action lender = ability.lends action lender) :
    extended.findsLender chains action = ability.findsLender chains action :=
  anyM_congr fun chain hchain => anyM_congr (h chain hchain)

/-- **What has been borrowed has a lender**, and what has not been has none. -/
theorem findsLender_of_borrowed (h : (ability.borrowed chains actions).fault = none) :
    ∀ action ∈ actions, ability.findsLender chains action =
      .ok (decide (action ∈ (ability.borrowed chains actions).actions)) := by
  induction actions with
  | nil => simp
  | cons first rest ih =>
    rw [borrowed] at h ⊢
    cases hlent : chains.anyM (·.anyM (ability.lends first)) with
    | error fault => simp [hlent] at h
    | ok found =>
      rw [hlent] at h
      have hrest : (ability.borrowed chains rest).fault = none := by
        cases found <;> exact h
      intro action haction
      by_cases hsame : action = first
      · subst hsame
        cases found with
        | true => simpa [findsLender] using hlent
        | false =>
          -- without a lender for it the action is not among those borrowed later either
          have hnot : action ∉ (ability.borrowed chains rest).actions := fun hmem => by
            have hfound := ih hrest action (mem_of_borrowed hmem)
            rw [findsLender, hlent] at hfound
            simp [hmem] at hfound
          simpa [findsLender, hnot] using hlent
      · have hfound := ih hrest action ((List.mem_cons.mp haction).resolve_left hsame)
        cases found <;> simpa [hsame] using hfound

/-- A fault that ends the borrowing is that of the search for some action. -/
theorem exists_findsLender_eq_error {fault : Fault}
    (h : (ability.borrowed chains actions).fault = some fault) :
    ∃ action ∈ actions, ability.findsLender chains action = .error fault := by
  induction actions with
  | nil => simp [borrowed] at h
  | cons first rest ih =>
    rw [borrowed] at h
    cases hlent : chains.anyM (·.anyM (ability.lends first)) with
    | error other =>
      rw [hlent] at h
      obtain rfl : other = fault := by simpa using h
      exact ⟨first, List.mem_cons_self, hlent⟩
    | ok found =>
      rw [hlent] at h
      have hrest : (ability.borrowed chains rest).fault = some fault := by
        cases found <;> exact h
      obtain ⟨action, haction, hfault⟩ := ih hrest
      exact ⟨action, List.mem_cons_of_mem _ haction, hfault⟩

/-! ### Borrowing for an object -/

/-- An ability with what something on some chains **lends** to an object. The chains are not
asked for if nothing is pending. -/
def borrowFor (ability : Ability) (entity : Entity)
    (source : Except AccessError (List (List Entity))) : Except AccessError Ability := do
  let pending ← (ability.pending entity).mapError .fault
  if pending.isEmpty then return ability
  else
    let chains ← source
    ability.withLoan entity (ability.borrowed chains pending)

@[simp] theorem extend_nil (ability : Ability) : ability.extend [] = ability := by
  simp [extend]

/-- An extension for a content borrows from what is above its containers, -/
theorem extendForContent_eq_borrowFor (store : Store) (container : Option Entity) :
    ability.extendForContent store entity container =
      ability.borrowFor entity
        ((contentWalks store entity container).map (·.map Store.Walk.visited)) := by
  rw [extendForContent, neededWalks, borrowFor]
  cases ability.pending entity with
  | error fault => rfl
  | ok pending =>
    cases pending with
    | nil => exact congrArg Except.ok (extend_nil ability)
    | cons first rest => cases contentWalks store entity container <;> rfl

/-- and one for a page or a step from what is above the object itself. -/
theorem extendForContainer_eq_borrowFor (store : Store) (application : Option Entity) :
    ability.extendForContainer store entity application =
      ability.borrowFor entity ((lendersAbove store entity application).map ([·])) := by
  rw [extendForContainer, borrowFor]
  cases ability.pending entity with
  | error fault => rfl
  | ok pending => cases pending <;> cases lendersAbove store entity application <;> rfl

/-- The actions that an ability **borrows** for an object from some chains. -/
structure Borrows (ability : Ability) (entity : Entity)
    (source : Except AccessError (List (List Entity))) (lent : List Action) : Prop where
  /-- What is borrowed is lendable, was refused, and has a lender. -/
  added : ∀ action ∈ lent, action ∈ Action.lendable ∧ ability.allows action entity = .ok false ∧
    ∃ chains, source = .ok chains ∧ ability.findsLender chains action = .ok true
  /-- What is not borrowed was allowed, or was refused and has no lender. -/
  others : ∀ action ∈ Action.lendable, action ∉ lent → ability.allows action entity = .ok true ∨
    ability.allows action entity = .ok false ∧
      ∃ chains, source = .ok chains ∧ ability.findsLender chains action = .ok false

/-- **What is added** are rules for the actions that are borrowed. -/
theorem exists_borrows (h : ability.borrowFor entity source = .ok extended) :
    ∃ lent, extended = ability.extend (lent.map (ruleForOne entity)) ∧
      ability.Borrows entity source lent := by
  obtain ⟨pending, hpending, h⟩ := bind_eq_ok.mp h
  have hpending := mapError_eq_ok.mp hpending
  have hanswers : ∀ action ∈ Action.lendable, action ∉ pending →
      ability.allows action entity = .ok true := by
    intro action haction hnot
    obtain ⟨answer, hanswer⟩ := (filterM_eq_ok hpending).1 action haction
    obtain ⟨allowed, hallowed, -⟩ := map_eq_ok.mp hanswer
    cases allowed with
    | true => exact hallowed
    | false => exact absurd ((mem_of_pending hpending).mpr ⟨haction, hallowed⟩) hnot
  split at h
  · next hempty =>
    obtain rfl := Except.ok.inj h
    obtain rfl := List.isEmpty_iff.mp hempty
    exact ⟨[], by simp, by simp, fun action haction _ => .inl (hanswers action haction (by simp))⟩
  · obtain ⟨chains, hchains, h⟩ := bind_eq_ok.mp h
    rw [withLoan] at h
    split at h
    · cases h
    · next hnone =>
      obtain rfl := Except.ok.inj h
      have hfinds := findsLender_of_borrowed hnone
      refine ⟨_, rfl, fun action haction => ?_, fun action haction hnot => ?_⟩
      · have hmem := mem_of_borrowed haction
        obtain ⟨hlendable, hrefused⟩ := (mem_of_pending hpending).mp hmem
        exact ⟨hlendable, hrefused, chains, hchains, by rw [hfinds action hmem]; simp [haction]⟩
      · by_cases hmem : action ∈ pending
        · exact .inr ⟨((mem_of_pending hpending).mp hmem).2, chains, hchains,
            by rw [hfinds action hmem]; simp [hnot]⟩
        · exact .inl (hanswers action haction hmem)

/-- **It succeeds** if the ability has an answer for every lendable action, and the search one
for what is refused. -/
theorem exists_borrowFor
    (h : ∀ action ∈ Action.lendable, ability.allows action entity = .ok true ∨
      ability.allows action entity = .ok false ∧
        ∃ chains found, source = .ok chains ∧ ability.findsLender chains action = .ok found) :
    ∃ extended, ability.borrowFor entity source = .ok extended := by
  have hpending : ∃ pending, ability.pending entity = .ok pending := by
    refine exists_filterM fun action haction => ?_
    rcases h action haction with hallowed | ⟨hrefused, -⟩
    · exact ⟨_, by rw [hallowed]; rfl⟩
    · exact ⟨_, by rw [hrefused]; rfl⟩
  obtain ⟨pending, hpending⟩ := hpending
  rw [borrowFor, hpending]
  cases pending with
  | nil => exact ⟨ability, rfl⟩
  | cons first rest =>
    have hfound : ∀ action ∈ first :: rest, ∃ chains found, source = .ok chains ∧
        ability.findsLender chains action = .ok found := by
      intro action haction
      obtain ⟨hlendable, hrefused⟩ := (mem_of_pending hpending).mp haction
      rcases h action hlendable with hallowed | ⟨-, hfound⟩
      · cases hrefused.symm.trans hallowed
      · exact hfound
    obtain ⟨chains, -, rfl, -⟩ := hfound first List.mem_cons_self
    cases hfault : (ability.borrowed chains (first :: rest)).fault with
    | none =>
      refine ⟨ability.extend ((ability.borrowed chains (first :: rest)).actions.map
        (ruleForOne entity)), ?_⟩
      change ability.withLoan entity (ability.borrowed chains (first :: rest)) = _
      rw [withLoan, hfault]
    | some fault =>
      -- a fault would be that of the search for some action
      obtain ⟨action, haction, hsearch⟩ := exists_findsLender_eq_error hfault
      obtain ⟨found, answer, hsource, hanswer⟩ := hfound action haction
      obtain rfl := Except.ok.inj hsource
      rw [hsearch] at hanswer
      cases hanswer

/-- **It fails** with a fault of the ability on the object, with the error of the chains, or
with the fault of something on them. -/
theorem exists_of_borrowFor_eq_error {error : AccessError}
    (h : ability.borrowFor entity source = .error error) :
    source = .error error ∨ ∃ fault, error = .fault fault ∧ ∃ action ∈ Action.lendable,
      ability.allows action entity = .error fault ∨
        ∃ chains, source = .ok chains ∧ ∃ chain ∈ chains, ∃ lender ∈ chain,
          ability.lends action lender = .error fault := by
  rcases bind_eq_error.mp h with h | ⟨pending, hpending, h⟩
  · cases hpending : ability.pending entity with
    | ok pending => simp [hpending] at h
    | error fault =>
      rw [hpending, mapError_error] at h
      obtain ⟨action, haction, hfault⟩ := filterM_eq_error hpending
      exact .inr ⟨fault, (Except.error.inj h).symm, action, haction, .inl (map_eq_error.mp hfault)⟩
  · have hpending := mapError_eq_ok.mp hpending
    split at h
    · cases h
    · rcases bind_eq_error.mp h with h | ⟨chains, hchains, h⟩
      · exact .inl h
      · rw [withLoan] at h
        split at h
        · next fault hfault =>
          obtain ⟨action, haction, hfinds⟩ := exists_findsLender_eq_error hfault
          exact .inr ⟨fault, (Except.error.inj h).symm, action,
            ((mem_of_pending hpending).mp haction).1,
            .inr ⟨chains, hchains, exists_lender_eq_error hfinds⟩⟩
        · cases h

namespace Borrows

/-- An ability that borrows for an object is extended for it. -/
theorem exists_borrowFor (h : ability.Borrows entity source lent) :
    ∃ extended, ability.borrowFor entity source = .ok extended := by
  refine Ability.exists_borrowFor fun action haction => ?_
  by_cases hmem : action ∈ lent
  · obtain ⟨-, hrefused, chains, hchains, hfinds⟩ := h.added action hmem
    exact .inr ⟨hrefused, chains, true, hchains, hfinds⟩
  · refine (h.others action haction hmem).imp_right ?_
    rintro ⟨hrefused, chains, hchains, hfinds⟩
    exact ⟨hrefused, chains, false, hchains, hfinds⟩

/-- What is borrowed is determined by what may be. -/
theorem mem_of_mem {others : List Action} (h : ability.Borrows entity source lent)
    (hothers : ability.Borrows entity source others) (hmem : action ∈ lent) :
    action ∈ others := by
  by_contra hnot
  obtain ⟨hlendable, hrefused, chains, hchains, hfinds⟩ := h.added action hmem
  rcases hothers.others action hlendable hnot with hallowed | ⟨-, found, hfound, hnone⟩
  · cases hrefused.symm.trans hallowed
  · obtain rfl := Except.ok.inj (hchains.symm.trans hfound)
    cases hfinds.symm.trans hnone

/-- What is borrowed is no wildcard. -/
theorem ne_manage (h : ability.Borrows entity source lent) : ∀ action ∈ lent, action ≠ .manage := by
  rintro action haction rfl
  exact absurd (h.added _ haction).1 (by decide)

end Borrows

/-- An ability that is **settled** on an object stays as it is. -/
theorem borrowFor_eq_self (h : ability.Borrows entity source []) :
    ability.borrowFor entity source = .ok ability := by
  obtain ⟨extended, hextended⟩ := h.exists_borrowFor
  obtain ⟨lent, rfl, hlent⟩ := exists_borrows hextended
  obtain rfl : lent = [] :=
    List.eq_nil_iff_forall_not_mem.mpr fun _ hmem => List.not_mem_nil (hlent.mem_of_mem h hmem)
  rw [hextended, List.map_nil, extend_nil]

/-! ### Decisions -/

/-- The rule for an object that has no identifier decides about nothing. -/
theorem meets_ruleForOne_of_none (hid : entity.id = none) (other : Entity) :
    (ruleForOne entity action).meets other = .ok false := by
  rw [Rule.meets, ruleForOne]
  simp only [Condition.check, Entity.cell_id, hid, Operand.ofId]
  cases other.id <;> rfl

/-- **What is borrowed is allowed on what the object stands for**, and everything else is
decided as before. -/
theorem check_borrowed (hlent : ∀ action ∈ lent, action ≠ .manage) :
    (ability.extend (lent.map (ruleForOne entity))).check action kind other =
      if action ∈ lent ∧ entity.StandsFor kind other then .ok true
      else ability.check action kind other := by
  cases hid : entity.id with
  | some id =>
    rw [check_lent hid hlent]
    simp [Entity.StandsFor, hid]
  | none =>
    -- no rule decides
    have hnone : Rule.firstDeciding other
        ((lent.map (ruleForOne entity)).filter (Rule.isAbout action kind)).reverse = .ok none := by
      refine Rule.firstDeciding_eq_none_iff.mpr fun rule hrule => ?_
      obtain ⟨lent, -, rfl⟩ :=
        List.mem_map.mp (List.mem_filter.mp (List.mem_reverse.mp hrule)).1
      exact meets_ruleForOne_of_none hid other
    rw [check_extend, hnone]
    simp [Entity.StandsFor, hid]

/-- **What is borrowed is possible on the kind** of the object, whatever its identifier. -/
theorem possible_borrowed (hlent : ∀ action ∈ lent, action ≠ .manage) :
    (ability.extend (lent.map (ruleForOne entity))).possible action kind = true ↔
      (action ∈ lent ∧ kind = entity.kind) ∨ ability.possible action kind = true := by
  by_cases hboth : action ∈ lent ∧ kind = entity.kind
  · refine iff_of_true (possible_extend_of_allowing (fun rule hrule => ?_) ?_) (.inl hboth)
    · obtain ⟨action, -, rfl⟩ := List.mem_map.mp hrule
      rfl
    · obtain ⟨hmem, rfl⟩ := hboth
      exact ⟨ruleForOne entity action, List.mem_map_of_mem hmem,
        by simp [Rule.isAbout, Rule.appliesTo, ruleForOne]⟩
  · rw [possible_extend_of_not_about, or_iff_right hboth]
    intro rule hrule
    obtain ⟨lent, hmem, rfl⟩ := List.mem_map.mp hrule
    refine Bool.eq_false_iff.mpr fun habout => hboth ?_
    obtain ⟨hkind, rfl⟩ : entity.kind = kind ∧ lent = action := by
      simpa [Rule.isAbout, Rule.appliesTo, ruleForOne, hlent lent hmem] using habout
    exact ⟨hmem, hkind.symm⟩

/-- What an object lends depends on what is allowed on it, and applications do not even on
that. -/
theorem lends_congr (hprincipal : extended.principal = ability.principal)
    (hallows : entity.kind ≠ .application →
      extended.allows action entity = ability.allows action entity) :
    extended.lends action entity = ability.lends action entity := by
  rw [lends, lends, hprincipal]
  by_cases hkind : entity.kind = .application
  · simp [hkind]
  · simp [hkind, hallows hkind]

/-- An ability that **decides alike** for an object that borrows from some chains: it has the
principal of another ability and decides as that does about the object and about the lenders on
the chains. -/
structure DecidesAlike (extended ability : Ability) (entity : Entity)
    (source : Except AccessError (List (List Entity))) : Prop where
  /-- They are for the same principal. -/
  principal : extended.principal = ability.principal
  /-- They decide alike about the object. -/
  entity : ∀ action ∈ Action.lendable,
    extended.allows action entity = ability.allows action entity
  /-- They decide alike about the lenders; applications are not asked. -/
  lenders : ∀ chains, source = .ok chains → ∀ chain ∈ chains, ∀ lender ∈ chain,
    lender.kind ≠ .application → ∀ action ∈ Action.lendable,
      extended.allows action lender = ability.allows action lender

namespace DecidesAlike

theorem lends (h : extended.DecidesAlike ability entity source) (hchains : source = .ok chains)
    {chain : List Entity} (hchain : chain ∈ chains) {lender : Entity} (hlender : lender ∈ chain)
    (haction : action ∈ Action.lendable) :
    extended.lends action lender = ability.lends action lender :=
  lends_congr h.principal fun hkind =>
    h.lenders chains hchains chain hchain lender hlender hkind action haction

/-- They borrow the same. -/
theorem borrows (h : extended.DecidesAlike ability entity source)
    (hlent : ability.Borrows entity source lent) : extended.Borrows entity source lent := by
  have hfinds : ∀ action ∈ Action.lendable, ∀ chains, source = .ok chains →
      extended.findsLender chains action = ability.findsLender chains action :=
    fun action haction chains hchains => findsLender_congr fun _ hchain _ hlender =>
      h.lends hchains hchain hlender haction
  refine ⟨fun action haction => ?_, fun action haction hnot => ?_⟩
  · obtain ⟨hlendable, hrefused, chains, hchains, hfound⟩ := hlent.added action haction
    exact ⟨hlendable, by rwa [h.entity action hlendable], chains, hchains,
      by rwa [hfinds action hlendable chains hchains]⟩
  · rw [h.entity action haction]
    refine (hlent.others action haction hnot).imp_right ?_
    rintro ⟨hrefused, chains, hchains, hnone⟩
    exact ⟨hrefused, chains, hchains, by rwa [hfinds action haction chains hchains]⟩

theorem symm (h : extended.DecidesAlike ability entity source) :
    ability.DecidesAlike extended entity source where
  principal := h.principal.symm
  entity action haction := (h.entity action haction).symm
  lenders chains hchains chain hchain lender hlender hkind action haction :=
    (h.lenders chains hchains chain hchain lender hlender hkind action haction).symm

end DecidesAlike

/-- An ability borrows as another does if they decide alike about lendable actions. -/
theorem Borrows.congr (h : ability.Borrows entity source lent)
    (hprincipal : extended.principal = ability.principal)
    (hallows : ∀ action ∈ Action.lendable, ∀ other,
      extended.allows action other = ability.allows action other) :
    extended.Borrows entity source lent :=
  DecidesAlike.borrows
    { principal := hprincipal
      entity := fun action haction => hallows action haction entity
      lenders := fun _ _ _ _ lender _ _ action haction => hallows action haction lender } h

/-! ### Settling -/

/-- **An ability that has borrowed for an object is settled on it.** What was borrowed is
allowed now; about the other actions it decides as before. -/
theorem settled_of_borrows (hid : entity.id.isSome = true)
    (h : ability.Borrows entity source lent) :
    (ability.extend (lent.map (ruleForOne entity))).Borrows entity source [] := by
  refine ⟨by simp, fun action haction _ => ?_⟩
  by_cases hmem : action ∈ lent
  · left
    rw [allows, check_borrowed h.ne_manage, if_pos ⟨hmem, .refl hid⟩]
  · have hsame : ∀ other, (ability.extend (lent.map (ruleForOne entity))).allows action other =
        ability.allows action other := fun other => by
      rw [allows, check_borrowed h.ne_manage, if_neg fun hboth => hmem hboth.1, allows]
    rw [hsame]
    refine (h.others action haction hmem).imp_right ?_
    rintro ⟨hrefused, chains, hchains, hnone⟩
    have hfinds : (ability.extend (lent.map (ruleForOne entity))).findsLender chains action =
        ability.findsLender chains action :=
      findsLender_congr fun _ _ lender _ => lends_congr rfl fun _ => hsame lender
    exact ⟨hrefused, chains, hchains, by rwa [hfinds]⟩

/-- **It remains settled** when it borrows for another object, if that stands for no lender on
the chains, or else for the first object as well. -/
theorem settled_of_borrows_other {others : Except AccessError (List (List Entity))}
    (h : ability.Borrows entity source []) (hother : ability.Borrows other others lent)
    (hsame : ∀ chains, source = .ok chains → ∀ chain ∈ chains, ∀ lender ∈ chain,
      lender.kind ≠ .application → other.StandsFor lender.kind lender →
        other.StandsFor entity.kind entity) :
    (ability.extend (lent.map (ruleForOne other))).Borrows entity source [] := by
  refine ⟨by simp, fun action haction _ => ?_⟩
  by_cases hboth : action ∈ lent ∧ other.StandsFor entity.kind entity
  · left
    rw [allows, check_borrowed hother.ne_manage, if_pos hboth]
  · have hallows : (ability.extend (lent.map (ruleForOne other))).allows action entity =
        ability.allows action entity := by
      rw [allows, check_borrowed hother.ne_manage, if_neg hboth, allows]
    rw [hallows]
    refine (h.others action haction (by simp)).imp_right ?_
    rintro ⟨hrefused, chains, hchains, hnone⟩
    have hfinds : (ability.extend (lent.map (ruleForOne other))).findsLender chains action =
        ability.findsLender chains action := by
      refine findsLender_congr fun chain hchain lender hlender => lends_congr rfl fun hkind => ?_
      rw [allows, check_borrowed hother.ne_manage, if_neg, allows]
      rintro ⟨hmem, hstands⟩
      exact hboth ⟨hmem, hsame chains hchains chain hchain lender hlender hkind hstands⟩
    exact ⟨hrefused, chains, hchains, by rwa [hfinds]⟩

/-! ### Chains told by what is on them -/

/-- Chains that **visit** exactly the objects of which a predicate holds. -/
def Visits (source : Except AccessError (List (List Entity))) (visited : Entity → Prop) : Prop :=
  ∃ chains, source = .ok chains ∧ ∀ entity, (∃ chain ∈ chains, entity ∈ chain) ↔ visited entity

/-- What is borrowed something visited lends, -/
theorem Borrows.exists_lends (h : ability.Borrows entity source lent)
    (hvisits : Visits source visited) (hmem : action ∈ lent) :
    ∃ lender, visited lender ∧ ability.Lends action lender := by
  obtain ⟨chains, rfl, hvisited⟩ := hvisits
  obtain ⟨hlendable, -, found, hfound, hfinds⟩ := h.added action hmem
  obtain rfl := Except.ok.inj hfound
  obtain ⟨chain, hchain, lender, hlender, hlends⟩ := exists_lender hfinds
  exact ⟨lender, (hvisited lender).mp ⟨chain, hchain, hlender⟩,
    (lends_eq_true_iff hlendable).mp hlends⟩

/-- and what is neither borrowed nor allowed nothing visited does. -/
theorem Borrows.allows_or_not_lends (h : ability.Borrows entity source lent)
    (hvisits : Visits source visited) (haction : action ∈ Action.lendable) (hmem : action ∉ lent) :
    ability.allows action entity = .ok true ∨
      ∀ lender, visited lender → ¬ ability.Lends action lender := by
  obtain ⟨chains, rfl, hvisited⟩ := hvisits
  refine (h.others action haction hmem).imp_right ?_
  rintro ⟨-, found, hfound, hnone⟩ lender hlender hlends
  obtain rfl := Except.ok.inj hfound
  obtain ⟨chain, hchain, hlender⟩ := (hvisited lender).mpr hlender
  have hdeclines := lends_of_no_lender hnone hchain hlender
  cases hdeclines.symm.trans ((lends_eq_true_iff haction).mpr hlends)

/-- **An extension allows what was allowed and what is lent.** It adds nothing for an object
without an identifier, which no rule can tell from others. -/
theorem allows_borrowFor_iff (hvisits : Visits source visited)
    (h : ability.borrowFor entity source = .ok extended) (haction : action ∈ Action.lendable) :
    extended.allows action entity = .ok true ↔
      ability.allows action entity = .ok true ∨
        entity.id.isSome = true ∧ ∃ lender, visited lender ∧ ability.Lends action lender := by
  obtain ⟨lent, rfl, hlent⟩ := exists_borrows h
  rw [allows, check_borrowed hlent.ne_manage]
  split
  · next hboth =>
    obtain ⟨hmem, -, -, hid⟩ := hboth
    exact iff_of_true rfl (.inr ⟨hid, hlent.exists_lends hvisits hmem⟩)
  · next hnot =>
    refine ⟨.inl, ?_⟩
    rintro (hallowed | ⟨hid, lender, hlender, hlends⟩)
    · exact hallowed
    · have hmem : action ∉ lent := fun hmem => hnot ⟨hmem, .refl hid⟩
      exact (hlent.allows_or_not_lends hvisits haction hmem).resolve_right fun hnone =>
        hnone lender hlender hlends

/-- It has an answer for every lendable action. -/
theorem exists_allows_of_borrowFor (h : ability.borrowFor entity source = .ok extended)
    (haction : action ∈ Action.lendable) :
    ∃ answer, extended.allows action entity = .ok answer := by
  obtain ⟨lent, rfl, hlent⟩ := exists_borrows h
  rw [allows, check_borrowed hlent.ne_manage]
  split
  · exact ⟨true, rfl⟩
  · next hnot =>
    by_cases hmem : action ∈ lent
    · exact ⟨false, (hlent.added action hmem).2.1⟩
    · rcases hlent.others action haction hmem with hallowed | ⟨hrefused, -⟩
      · exact ⟨true, hallowed⟩
      · exact ⟨false, hrefused⟩

/-- It decides as before about other actions, and about what the object does not stand for. -/
theorem check_borrowFor_of_other (h : ability.borrowFor entity source = .ok extended)
    (hnot : action ∈ Action.lendable → ¬ entity.StandsFor kind other) :
    extended.check action kind other = ability.check action kind other := by
  obtain ⟨lent, rfl, hlent⟩ := exists_borrows h
  rw [check_borrowed hlent.ne_manage, if_neg]
  rintro ⟨hmem, hstands⟩
  exact hnot (hlent.added action hmem).1 hstands

/-- It fails with a fault of the ability, on the object or on something visited. -/
theorem fault_of_borrowFor (hvisits : Visits source visited) {error : AccessError}
    (h : ability.borrowFor entity source = .error error) :
    ∃ fault, error = .fault fault ∧ ∃ action ∈ Action.lendable, ∃ other,
      ability.allows action other = .error fault ∧
        (other = entity ∨ visited other ∧ other.kind ≠ .application) := by
  obtain ⟨chains, rfl, hvisited⟩ := hvisits
  rcases exists_of_borrowFor_eq_error h with herror | ⟨fault, rfl, action, haction, hfault⟩
  · cases herror
  refine ⟨fault, rfl, action, haction, ?_⟩
  rcases hfault with hfault | ⟨found, hfound, chain, hchain, lender, hlender, hlends⟩
  · exact ⟨entity, hfault, .inl rfl⟩
  · obtain rfl := Except.ok.inj hfound
    obtain ⟨hkind, hfault⟩ := allows_of_lends_eq_error hlends
    exact ⟨lender, hfault, .inr ⟨(hvisited lender).mp ⟨chain, hchain, hlender⟩, hkind⟩⟩

/-! ### Extending for a content -/

section Content

variable {content : Entity} {store : Store}

/-- What is above the content is visited. -/
theorem visits_unnamed (hopen : store.isOpen = true) (hkeyed : store.IsKeyed) (content : Entity) :
    Visits ((contentWalks store content none).map (·.map Store.Walk.visited))
      (IsAbove store content) := by
  obtain ⟨walks, hwalks, hvisited⟩ := exists_contentWalks hopen hkeyed content
  exact ⟨walks.map Store.Walk.visited, by rw [hwalks]; rfl, hvisited⟩

/-- An extension fails with a fault of the ability on the content or on something above it. -/
theorem fault_of_extendForContent (hopen : store.isOpen = true) (hkeyed : store.IsKeyed)
    {error : AccessError} (h : ability.extendForContent store content none = .error error) :
    ∃ fault, error = .fault fault ∧ ∃ action ∈ Action.lendable, ∃ entity,
      ability.allows action entity = .error fault ∧
        (entity = content ∨ IsAbove store content entity ∧ entity.kind ≠ .application) := by
  rw [extendForContent_eq_borrowFor] at h
  exact fault_of_borrowFor (visits_unnamed hopen hkeyed content) h

/-- What an extension that succeeds decides about the content, and about everything else. -/
theorem allows_extendForContent {id : Uuid} (hopen : store.isOpen = true) (hkeyed : store.IsKeyed)
    (hid : content.id = some id)
    (h : ability.extendForContent store content none = .ok extended) :
    (∀ action ∈ Action.lendable,
      extended.allows action content = .ok true ↔
        ability.allows action content = .ok true ∨
          ∃ entity, IsAbove store content entity ∧ ability.Lends action entity) ∧
    (∀ action entity, action ∉ Action.lendable ∨ entity.kind ≠ content.kind ∨
        entity.id ≠ content.id →
      extended.allows action entity = ability.allows action entity) := by
  rw [extendForContent_eq_borrowFor] at h
  refine ⟨fun action haction => ?_, fun action entity hother => ?_⟩
  · simpa [hid] using allows_borrowFor_iff (visits_unnamed hopen hkeyed content) h haction
  · refine check_borrowFor_of_other h fun haction hstands => ?_
    rcases hother with hlendable | hkind | hsame
    · exact hlendable haction
    · exact hkind hstands.1
    · exact hsame hstands.2.1

/-- **Extending for a content is exact.** Without a container given, an ability extended for
a content allows to read, update or delete it just when it did before or something
above the content lends the action; about other objects, and about creating and managing
the content, it decides as before. Nothing that dangles keeps it from that. The extension
fails only with a fault that the ability itself has on the content or on something above
it. -/
theorem extendForContent_exact {id : Uuid} (hopen : store.isOpen = true) (hkeyed : store.IsKeyed)
    (hid : content.id = some id) :
    (∀ error, ability.extendForContent store content none = .error error →
      ∃ fault, error = .fault fault ∧ ∃ action ∈ Action.lendable, ∃ entity,
        ability.allows action entity = .error fault ∧
          (entity = content ∨ IsAbove store content entity ∧ entity.kind ≠ .application)) ∧
    ∀ extended, ability.extendForContent store content none = .ok extended →
      (∀ action ∈ Action.lendable,
        extended.allows action content = .ok true ↔
          ability.allows action content = .ok true ∨
            ∃ entity, IsAbove store content entity ∧ ability.Lends action entity) ∧
      (∀ action entity, action ∉ Action.lendable ∨ entity.kind ≠ content.kind ∨
          entity.id ≠ content.id →
        extended.allows action entity = ability.allows action entity) := by
  exact ⟨fun _ => fault_of_extendForContent hopen hkeyed,
    fun _ => allows_extendForContent hopen hkeyed hid⟩

/-- A workflow is lent to a reader by the application above it. It is reached through a step
of the workflow that leads back to it and a page that displays it. -/
theorem extendForContent_exact_workflow :
    let workflow : Entity := .workflow { id := some ⟨1, by decide⟩ }
    let page : Entity :=
      .page { id := some ⟨2, by decide⟩ } (some ⟨4, by decide⟩) { id := workflow.id }
    let step : Entity := .step { id := some ⟨3, by decide⟩ } workflow.id { id := workflow.id }
    let application : Entity :=
      .application
        { id := some ⟨4, by decide⟩, grants := [{ type := "canSee", roleId := default }] } .null
    let store : Store := { entities := [workflow, page, step, application] }
    let ability : Ability :=
      { rules := [], principal := some { userId := default, roles := [{ id := default }] } }
    ∃ extended, ability.extendForContent store workflow none = .ok extended ∧
      extended.allows .read workflow = .ok true ∧
      extended.allows .create workflow = .ok false := by
  intro workflow page step application store ability
  have hkeyed : store.IsKeyed :=
    { identified := by simp [store, workflow, page, step, application, Entity.id]
      distinct := by simp [store, workflow, page, step, application, Entity.id] }
  have hextended : ability.extendForContent store workflow none = .ok _ := rfl
  obtain ⟨hlendable, hother⟩ := (extendForContent_exact rfl hkeyed rfl).2 _ hextended
  refine ⟨_, hextended, (hlendable .read (by decide)).mpr (.inr ?_), hother _ _ (.inl (by decide))⟩
  have hworkflow : store.IsBelow step workflow := .workflow (by simp [store]) rfl rfl
  have hpage : store.IsBelow workflow page := .page (by simp [store]) rfl (by decide)
  have happlication : store.IsBelow page application := .application (by simp [store]) rfl rfl
  have hreaches : store.Reaches step application :=
    ((Relation.ReflTransGen.single hworkflow).tail hpage).tail happlication
  refine ⟨application, ⟨step, by simp [store], by decide, hreaches⟩, ?_⟩
  exact ⟨_, _, rfl, List.mem_singleton_self _, rfl, List.mem_singleton_self _⟩

end Content

end Ability

end Clearance
