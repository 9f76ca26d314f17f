import Clearance.Proofs.Ability.Borrowing
import Clearance.Proofs.Ability.Denials
import Clearance.Proofs.Ability.Separation

/-!
# Extensions made twice

An extension that is made a second time, with the same arguments and the same store, finds that
there is nothing left to do (`Clearance.Ability.apply_again`). This is not because it notices
that it was made before. It asks the extended ability everything it asked the first time, and
the answers have to show it.

* What was borrowed for an object is allowed on the object now. What was not borrowed was
  allowed before or is lent by nothing on the chains, and the rules that were added do not
  decide about anything on the chains.
* Of the pages of an application and of the steps of a workflow none is above another, so
  that what is borrowed for one of them gives nothing to the others.
* The rules about records are guarded by what is possible, and each that is added makes its
  action possible.

The one thing that goes by the identifier of an object is whether a rule decides about it. An
object without one is never told apart, and rules for it are added again each time
(`Clearance.Ability.apply_again_anonymous`). They decide about nothing, so that the decisions
are the same after all.
-/

namespace Clearance

open Outcome

/-! ### Rules about records -/

namespace FormRecords

variable {limit : Int} {form : Entity} {forms : List Entity} {ability extended : Ability}
  {principal : Principal} {action : Action} {type : PermissionType} {rules : List Rule}

/-- A list that gives nothing, or, to create, something that no record meets, adds nothing to
any ability. -/
theorem openingRules_of_closed
    (hclosed : ∀ type, listFor? action = some type → ∃ found,
      Listing.recordAccess limit form.grants type principal = .ok found ∧
        ∀ access ∈ found, action = .create ∧ access.isNothing = true) :
    openingRules limit form ability principal action = .ok [] := by
  have hnone : action ≠ .create → ∀ type, listFor? action = some type →
      Listing.recordAccess limit form.grants type principal = .ok none := by
    intro hcreate type htype
    obtain ⟨found, hfound, honly⟩ := hclosed type htype
    cases found with
    | none => exact hfound
    | some access => exact absurd (honly access rfl).1 hcreate
  cases action with
  | create =>
    obtain ⟨found, hfound, hnothing⟩ := hclosed .canCreateRecords rfl
    rw [openingRules, creationRules, hfound]
    cases found with
    | none => split <;> rfl
    | some access => split <;> simp [Except.map, (hnothing access rfl).2]
  | read =>
    rw [openingRules, readingRules, FormRecords.access, hnone (by decide) .canSeeRecords rfl]
    split <;> rfl
  | update =>
    rw [openingRules, changingRules, FormRecords.access, hnone (by decide) .canUpdateRecords rfl]
    split <;> rfl
  | delete =>
    rw [openingRules, changingRules, FormRecords.access, hnone (by decide) .canDeleteRecords rfl]
    split <;> rfl
  | manage => rfl

/-- What made an action possible is not added a second time, and what did not add anything
does not do so later. -/
theorem openingRules_again (h : openingRules limit form ability principal action = .ok rules)
    (hopened : ability.possible action .record = true ∨
      (∃ access, Opens limit principal form action access) →
        extended.possible action .record = true) :
    openingRules limit form extended principal action = .ok [] := by
  cases adds_of_openingRules h with
  | possible hpossible => exact openingRules_of_possible (hopened (.inl hpossible))
  | closed _ hclosed => exact openingRules_of_closed hclosed
  | opened access _ hopens _ => exact openingRules_of_possible (hopened (.inr ⟨access, hopens⟩))
  | hidden access _ hopens _ _ => exact openingRules_of_possible (hopened (.inr ⟨access, hopens⟩))

/-- **The rules of a form are added once**, if they make possible what they open. -/
theorem rules_again (h : FormRecords.rules limit form ability principal = .ok rules)
    (hopened : ∀ action, ability.possible action .record = true ∨
      (∃ access, Opens limit principal form action access) →
        extended.possible action .record = true) :
    FormRecords.rules limit form extended principal = .ok [] := by
  have hagain : ∀ action, openingRules limit form extended principal action = .ok [] := by
    intro action
    obtain ⟨about, habout, -⟩ := filter_rules h action
    exact openingRules_again habout (hopened action)
  have hcreation := hagain .create
  have hreading := hagain .read
  have hupdating := hagain .update
  have hdeleting := hagain .delete
  simp only [openingRules] at hcreation hreading hupdating hdeleting
  rw [FormRecords.rules, hcreation, hreading, hupdating, hdeleting]
  rfl

/-- The rule about several forms is added once, if it makes its action possible. -/
theorem jointRule_again (h : jointRule limit forms ability principal action type = .ok rules)
    (hopened : ability.possible action .record = true ∨ rules ≠ [] →
      extended.possible action .record = true) :
    jointRule limit forms extended principal action type = .ok [] := by
  by_cases hpossible : extended.possible action .record = true
  · rw [jointRule, if_pos hpossible]
  · have hbefore : ¬ ability.possible action .record = true :=
      fun hbefore => hpossible (hopened (.inl hbefore))
    obtain rfl : rules = [] := by
      by_contra hrules
      exact hpossible (hopened (.inr hrules))
    rw [jointRule, if_neg hbefore] at h
    rw [jointRule, if_neg hpossible, h]

end FormRecords

namespace Ability

open FormRecords

variable {ability extended : Ability} {entity : Entity} {limit : Int}

theorem extendForRecords_again {form : Entity}
    (h : ability.extendForRecords limit form = .ok extended) :
    extended.extendForRecords limit form = .ok extended := by
  cases hprincipal : ability.principal with
  | none =>
    have hsame := h
    rw [extendForRecords, hprincipal] at h
    rwa [← Except.ok.inj h] at hsame ⊢
  | some principal =>
    have hpossible : ∀ action, extended.possible action .record = true ↔
        ability.possible action .record = true ∨
          ∃ access, Opens limit principal form action access :=
      fun _ => possible_extendForRecords hprincipal h
    have hkept : extended.principal = some principal :=
      (grows_of_appendsMany (appendsMany_of_extendForRecords h)).principal.trans hprincipal
    rw [extendForRecords, hprincipal] at h
    obtain ⟨added, hadded, -⟩ := map_eq_ok.mp h
    have hagain : FormRecords.rules limit form extended principal = .ok [] :=
      rules_again hadded fun action => (hpossible action).mpr
    rw [extendForRecords, hkept]
    simp only [hagain, Except.map, extend_nil]

theorem extendForForms_again {forms : List Entity}
    (h : ability.extendForForms limit forms = .ok extended) :
    extended.extendForForms limit forms = .ok extended := by
  cases hprincipal : ability.principal with
  | none =>
    have hsame := h
    rw [extendForForms, hprincipal] at h
    rwa [← Except.ok.inj h] at hsame ⊢
  | some principal =>
    have hgrows := grows_of_appendsMany (appendsMany_of_extendForForms h)
    obtain ⟨added, rfl, hadded, habout⟩ := exists_joiningRules hprincipal h
    have hagain : ∀ action type, recordType? action = some type →
        jointRule limit forms (ability.extend added) principal action type = .ok [] := by
      intro action type htype
      have hrules := habout action
      rw [joiningRules, htype] at hrules
      refine jointRule_again hrules ?_
      rintro (hbefore | hsome)
      · exact hgrows.possible hbefore
      · obtain ⟨rule, hrule⟩ := List.exists_mem_of_ne_nil _ hsome
        exact possible_extend_of_allowing (fun rule hrule => (hadded rule hrule).2)
          ⟨rule, List.mem_filter.mp hrule⟩
    rw [extendForForms, hgrows.principal, hprincipal]
    simp only [hagain .read _ rfl, hagain .update _ rfl, hagain .delete _ rfl]
    exact congrArg Except.ok (extend_nil _)

/-! ### One object -/

variable {source : Except AccessError (List (List Entity))}

/-- What has an identifier borrows once. -/
theorem borrowFor_again (hid : entity.id.isSome = true)
    (h : ability.borrowFor entity source = .ok extended) :
    extended.borrowFor entity source = .ok extended := by
  obtain ⟨lent, rfl, hlent⟩ := exists_borrows h
  exact borrowFor_eq_self (settled_of_borrows hid hlent)

/-- What has none borrows again, but that makes no difference. -/
theorem exists_borrowFor_again (h : ability.borrowFor entity source = .ok extended) :
    ∃ again, extended.borrowFor entity source = .ok again ∧
      (∀ action kind other,
        again.check action kind other = extended.check action kind other) ∧
      ∀ action kind, again.possible action kind = extended.possible action kind := by
  by_cases hid : entity.id.isSome = true
  · exact ⟨extended, borrowFor_again hid h, fun _ _ _ => rfl, fun _ _ => rfl⟩
  · have hnot : ∀ kind other, ¬ entity.StandsFor kind other := fun _ _ hstands => hid hstands.2.2
    obtain ⟨lent, rfl, hlent⟩ := exists_borrows h
    -- the rules do not decide, so what was borrowed may be borrowed again
    have hborrows : (ability.extend (lent.map (ruleForOne entity))).Borrows entity source lent := by
      refine hlent.congr rfl fun action _ other => ?_
      rw [allows, check_borrowed hlent.ne_manage, if_neg fun hboth => hnot _ _ hboth.2, allows]
    obtain ⟨again, hagain⟩ := hborrows.exists_borrowFor
    refine ⟨again, hagain, ?_⟩
    obtain ⟨more, rfl, hmore⟩ := exists_borrows hagain
    refine ⟨fun action kind other => ?_, fun action kind => Bool.eq_iff_iff.mpr ?_⟩
    · rw [check_borrowed hmore.ne_manage, if_neg fun hboth => hnot _ _ hboth.2]
    · rw [possible_borrowed hmore.ne_manage]
      refine or_iff_right_of_imp ?_
      rintro ⟨hmem, hkind⟩
      exact (possible_borrowed hlent.ne_manage).mpr (.inl ⟨hmore.mem_of_mem hborrows hmem, hkind⟩)

/-! ### Several objects of a kind -/

variable {store : Store} {application : Option Entity} {entities all : List Entity}

/-- An ability that is **settled** on a page or a step: there is nothing for it to borrow. -/
def IsSettled (ability : Ability) (store : Store) (application : Option Entity)
    (entity : Entity) : Prop :=
  ability.Borrows entity ((lendersAbove store entity application).map ([·])) []

/-- Objects that are **apart**: each has an identifier, and none stands for something above
another, applications left aside, unless it stands for the other as well. -/
structure AreApart (store : Store) (application : Option Entity) (entities : List Entity) :
    Prop where
  /-- Each has an identifier. -/
  identified : ∀ entity ∈ entities, entity.id.isSome = true
  /-- None is above another. -/
  apart : ∀ entity ∈ entities, ∀ other ∈ entities, ∀ lenders,
    lendersAbove store entity application = .ok lenders → ∀ lender ∈ lenders,
      lender.kind ≠ .application → other.StandsFor lender.kind lender →
        other.StandsFor entity.kind entity

/-- Borrowing for one of several objects settles it and keeps the others settled. -/
theorem IsSettled.extendForContainer {other : Entity} {next : Ability}
    (hall : AreApart store application all) (hentity : entity ∈ all) (hother : other ∈ all)
    (hnext : ability.extendForContainer store other application = .ok next)
    (h : entity = other ∨ ability.IsSettled store application entity) :
    next.IsSettled store application entity := by
  rw [extendForContainer_eq_borrowFor] at hnext
  obtain ⟨lent, rfl, hlent⟩ := exists_borrows hnext
  rcases h with rfl | hsettled
  · exact settled_of_borrows (hall.identified entity hentity) hlent
  · refine settled_of_borrows_other hsettled hlent ?_
    intro chains hchains chain hchain lender hlender
    obtain ⟨lenders, hlenders, rfl⟩ := map_eq_ok.mp hchains
    obtain rfl := List.mem_singleton.mp hchain
    exact hall.apart entity hentity other hother chain hlenders lender hlender

/-- **An ability that is extended for several objects is settled on all of them.** -/
theorem isSettled_of_extendForContainers (hall : AreApart store application all) :
    ∀ {entities : List Entity} {ability : Ability}, (∀ entity ∈ entities, entity ∈ all) →
      ability.extendForContainers store application entities = .ok extended →
      ∀ entity ∈ all, entity ∈ entities ∨ ability.IsSettled store application entity →
        extended.IsSettled store application entity := by
  intro entities
  induction entities with
  | nil =>
    intro ability _ h entity _ hsettled
    obtain rfl := Except.ok.inj h
    exact hsettled.resolve_left List.not_mem_nil
  | cons first rest ih =>
    intro ability hmem h entity hentity hsettled
    obtain ⟨hfirst, hrest⟩ := List.forall_mem_cons.mp hmem
    obtain ⟨next, hnext, h⟩ := bind_eq_ok.mp h
    refine ih hrest h entity hentity ?_
    by_cases hlater : entity ∈ rest
    · exact .inl hlater
    · refine .inr (IsSettled.extendForContainer hall hentity hfirst hnext (hsettled.imp_left ?_))
      exact fun hentity => (List.mem_cons.mp hentity).resolve_right hlater

/-- A settled ability stays as it is. -/
theorem extendForContainers_eq_self
    (h : ∀ entity ∈ entities, ability.IsSettled store application entity) :
    ability.extendForContainers store application entities = .ok ability := by
  induction entities with
  | nil => rfl
  | cons first rest ih =>
    obtain ⟨hfirst, hrest⟩ := List.forall_mem_cons.mp h
    have hsame : ability.extendForContainer store first application = .ok ability := by
      rw [extendForContainer_eq_borrowFor]
      exact borrowFor_eq_self hfirst
    rw [extendForContainers, List.foldlM_cons, hsame]
    exact ih hrest

/-! ### Creating pages and steps -/

variable {kind : Kind} {container : Entity}

/-- That pages or steps may be created decides about nothing else. -/
theorem check_allowCreating (h : ability.allowCreating kind container = .ok extended)
    {action : Action} {asked : Kind} (hother : ¬ (action = .create ∧ asked = kind))
    (other : Entity) : extended.check action asked other = ability.check action asked other := by
  obtain ⟨mayUpdate, -, h⟩ := bind_eq_ok.mp h
  obtain rfl := Except.ok.inj h
  split
  · refine check_extend_of_not_about fun rule hrule => Bool.eq_false_iff.mpr fun habout => ?_
    obtain ⟨hcreate, hkind, -⟩ := Rule.mem_each.mp hrule
    rw [List.mem_singleton] at hcreate hkind
    obtain ⟨hasked, hmanage | haction⟩ := Rule.isAbout_iff.mp habout
    · cases hcreate.symm.trans hmanage
    · exact hother ⟨haction.symm.trans hcreate, hasked.symm.trans hkind⟩
  · rfl

/-- So it decides about no lendable action. -/
theorem allows_of_allowCreating (h : ability.allowCreating kind container = .ok extended)
    {action : Action} (haction : action ∈ Action.lendable) (other : Entity) :
    extended.allows action other = ability.allows action other := by
  refine check_allowCreating h ?_ other
  rintro ⟨rfl, -⟩
  exact absurd haction (by decide)

theorem IsSettled.allowCreating (hsettled : ability.IsSettled store application entity)
    (h : ability.allowCreating kind container = .ok extended) :
    extended.IsSettled store application entity := by
  refine Borrows.congr hsettled ?_ fun action haction => allows_of_allowCreating h haction
  obtain ⟨mayUpdate, -, h⟩ := bind_eq_ok.mp h
  obtain rfl := Except.ok.inj h
  split <;> rfl

/-- The rule for creating them is added once. -/
theorem allowCreating_again (h : ability.allowCreating kind container = .ok extended) :
    extended.allowCreating kind container = .ok extended := by
  have hsame : extended.allows .update container = ability.allows .update container :=
    allows_of_allowCreating h (by decide) container
  obtain ⟨mayUpdate, hupdate, h⟩ := bind_eq_ok.mp h
  rw [Ability.allowCreating, hsame, hupdate]
  obtain rfl := Except.ok.inj h
  split
  · -- now it is possible to create them
    have hpossible : (ability.extend (Rule.allow [.create] [kind])).possible .create kind = true :=
      possible_extend_of_allowing (fun rule hrule => (Rule.mem_each.mp hrule).2.2.2)
        ⟨_, List.mem_singleton_self _, Rule.isAbout_iff.mpr ⟨rfl, .inr rfl⟩⟩
    simp [hpossible, pure, Except.pure, bind, Except.bind]
  · next hnot => simp [hnot, pure, Except.pure, bind, Except.bind]

/-- **Several objects and creating more of them**: nothing is left to do. -/
theorem extendForContainers_allowCreating_again {settled : Ability}
    (hall : AreApart store application entities)
    (hsettled : ability.extendForContainers store application entities = .ok settled)
    (h : settled.allowCreating kind container = .ok extended) :
    extended.extendForContainers store application entities = .ok extended ∧
      extended.allowCreating kind container = .ok extended := by
  refine ⟨extendForContainers_eq_self fun entity hentity => ?_, allowCreating_again h⟩
  exact IsSettled.allowCreating (isSettled_of_extendForContainers hall (fun _ => id) hsettled entity
    hentity (.inl hentity)) h

/-! ### Pages and steps that are stored -/

/-- The pages of an application are apart. -/
theorem areApart_pagesOf (hkeyed : store.IsKeyed) (hkind : container.kind = .application) :
    AreApart store (some container) (store.pagesOf container.id) where
  identified entity hentity := by
    obtain ⟨id, hid⟩ := hkeyed.identified entity (Store.mem_ofKindWhere.mp hentity).1
    rw [hid]
    rfl
  apart entity _ other _ lenders hlenders lender hlender hnot := by
    obtain rfl := Except.ok.inj hlenders
    obtain rfl := List.mem_singleton.mp hlender
    exact absurd hkind hnot

/-- The steps of a workflow are apart, since what is above a step is on a higher level. -/
theorem areApart_stepsOf (hopen : store.isOpen = true) (hkeyed : store.IsKeyed) {id : Option Uuid} :
    AreApart store none (store.stepsOf id) where
  identified entity hentity := by
    obtain ⟨id, hid⟩ := hkeyed.identified entity (Store.mem_ofKindWhere.mp hentity).1
    rw [hid]
    rfl
  apart entity hentity other hother lenders hlenders lender hlender _ hstands := by
    obtain ⟨hstored, hstep, -⟩ := Store.mem_ofKindWhere.mp hentity
    obtain ⟨-, hotherStep, -⟩ := Store.mem_ofKindWhere.mp hother
    obtain ⟨walk, hwalk, hvisited⟩ := Store.exists_walk hopen hkeyed hstored (.inl hstep)
    obtain ⟨found, hfound, rfl⟩ := map_eq_ok.mp hlenders
    obtain rfl := Except.ok.inj (hwalk.symm.trans hfound)
    have hlevel : lender.level = 0 := by
      have hkind := hstands.1.trans hotherStep
      cases lender <;> first | rfl | exact Kind.noConfusion hkind
    rcases (hvisited lender).mp (List.mem_of_mem_drop hlender) with _ | ⟨_, hlast⟩
    · exact hstands
    · have hup := hlast.level_eq
      omega

end Ability

/-! ### Any extension -/

namespace Extension

/-- An extension that is **settling**: what it is for can be told apart by identifiers. The
features of an application are left aside, since they are added again each time. -/
def IsSettling : Extension → Prop
  | .content _ entity _ | .page _ entity _ | .step _ entity => entity.id.isSome = true
  | .application store entity => store.IsKeyed ∧ entity.kind = .application
  | .workflow store _ => store.IsKeyed
  | .features _ => False
  | .records .. | .forms .. => True

/-- An extension that is for **one object**, a content, a page or a step. -/
def IsForOne : Extension → Prop
  | .content .. | .page .. | .step .. => True
  | _ => False

end Extension

namespace Ability

variable {ability extended : Ability} {extension : Extension}

theorem isOpen_of_reached {store : Store} {done : Unit}
    (h : store.reached.mapError AccessError.fault = .ok done) : store.isOpen = true := by
  by_contra hclosed
  simp [Store.reached, hclosed] at h

/-- **An extension that is made again does nothing.** If it succeeds, then it succeeds on its own
result, and adds no rule to it. Only rules for a content, a page or a step that has no identifier
are added again, and then what is decided stays the same. -/
theorem apply_again (h : extension.apply ability = .ok extended) :
    (extension.IsSettling → extension.apply extended = .ok extended) ∧
    (extension.IsForOne → ∃ again, extension.apply extended = .ok again ∧
      (∀ action kind other,
        again.check action kind other = extended.check action kind other) ∧
      ∀ action kind, again.possible action kind = extended.possible action kind) := by
  cases extension with
  | content store entity container =>
    simp only [Extension.apply, extendForContent_eq_borrowFor] at h ⊢
    exact ⟨fun hid => borrowFor_again hid h, fun _ => exists_borrowFor_again h⟩
  | page store entity owner =>
    simp only [Extension.apply, extendForContainer_eq_borrowFor] at h ⊢
    exact ⟨fun hid => borrowFor_again hid h, fun _ => exists_borrowFor_again h⟩
  | step store entity =>
    simp only [Extension.apply, extendForContainer_eq_borrowFor] at h ⊢
    exact ⟨fun hid => borrowFor_again hid h, fun _ => exists_borrowFor_again h⟩
  | application store entity =>
    refine ⟨?_, fun hone => hone.elim⟩
    rintro ⟨hkeyed, hkind⟩
    obtain ⟨done, hreached, h⟩ := bind_eq_ok.mp h
    obtain ⟨settled, hsettled, h⟩ := bind_eq_ok.mp h
    obtain ⟨hsame, hcreating⟩ :=
      extendForContainers_allowCreating_again (areApart_pagesOf hkeyed hkind) hsettled h
    rw [Extension.apply, extendForApplication, hreached, hsame]
    exact hcreating
  | workflow store entity =>
    refine ⟨fun hkeyed => ?_, fun hone => hone.elim⟩
    obtain ⟨done, hreached, h⟩ := bind_eq_ok.mp h
    obtain ⟨settled, hsettled, h⟩ := bind_eq_ok.mp h
    obtain ⟨hsame, hcreating⟩ := extendForContainers_allowCreating_again
      (areApart_stepsOf (isOpen_of_reached hreached) hkeyed) hsettled h
    rw [Extension.apply, extendForWorkflow, hreached, hsame]
    exact hcreating
  | features applicationId => exact ⟨fun hsettling => hsettling.elim, fun hone => hone.elim⟩
  | records limit entity =>
    exact ⟨fun _ => extendForRecords_again h, fun hone => hone.elim⟩
  | forms limit entities =>
    refine ⟨fun _ => ?_, fun hone => hone.elim⟩
    rw [Extension.apply, extendForForms_again (mapError_eq_ok.mp h), mapError_ok]

/-- The step of a workflow is read by those who may see the application around it, and that is
found out once. -/
theorem apply_again_workflow :
    let workflow : Entity := .workflow { id := some ⟨1, by decide⟩ }
    let page : Entity :=
      .page { id := some ⟨2, by decide⟩ } (some ⟨4, by decide⟩) { id := workflow.id }
    let step : Entity := .step { id := some ⟨3, by decide⟩ } workflow.id {}
    let application : Entity :=
      .application
        { id := some ⟨4, by decide⟩, grants := [{ type := "canSee", roleId := default }] } .null
    let store : Store := { entities := [workflow, page, step, application] }
    let ability : Ability :=
      { rules := [], principal := some { userId := default, roles := [{ id := default }] } }
    ∃ extended, (Extension.workflow store workflow).apply ability = .ok extended ∧
      extended.allows .read step = .ok true ∧
      (Extension.workflow store workflow).apply extended = .ok extended := by
  intro workflow page step application store ability
  have hkeyed : store.IsKeyed :=
    { identified := by simp [store, workflow, page, step, application, Entity.id]
      distinct := by simp [store, workflow, page, step, application, Entity.id] }
  have hextended : (Extension.workflow store workflow).apply ability = .ok _ := rfl
  exact ⟨_, hextended, rfl, (apply_again hextended).1 hkeyed⟩

/-- **Without an identifier rules are added again**: a page that has not been stored, so that it
has none, is read by those who may see its application, were it not that no rule can tell it. -/
theorem apply_again_anonymous :
    let application : Entity :=
      .application
        { id := some ⟨4, by decide⟩, grants := [{ type := "canSee", roleId := ⟨2, by decide⟩ }] }
        (.text activeStatus)
    let page : Entity :=
      .page { grants := [{ type := "canSee", roleId := ⟨3, by decide⟩ }] } application.id {}
    ∃ once twice,
      (Extension.page {} page (some application)).apply
          (base { userId := default, roles := [{ id := ⟨2, by decide⟩ }] }) = .ok once ∧
      (Extension.page {} page (some application)).apply once = .ok twice ∧
      twice.rules.length = once.rules.length + 1 ∧ once.allows .read page = .ok false := by
  intro application page
  have hcomputed : ((((Extension.page {} page (some application)).apply
      (base { userId := default, roles := [{ id := ⟨2, by decide⟩ }] })).bind fun once =>
        ((Extension.page {} page (some application)).apply once).map fun twice =>
          (twice.rules.length == once.rules.length + 1) &&
            (once.allows .read page).toOption == some false).toOption) = some true := by
    decide +kernel
  obtain ⟨once, honce, h⟩ := bind_eq_ok.mp (toOption_eq_some_iff.mp hcomputed)
  obtain ⟨twice, htwice, h⟩ := map_eq_ok.mp h
  obtain ⟨hlength, hrefused⟩ := Bool.and_eq_true_iff.mp h
  rw [beq_iff_eq] at hlength hrefused
  exact ⟨once, twice, honce, htwice, hlength, toOption_eq_some_iff.mp hrefused⟩

end Ability

end Clearance
