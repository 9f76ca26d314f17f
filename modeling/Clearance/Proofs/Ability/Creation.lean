import Clearance.Proofs.Ability.Entries
import Clearance.Proofs.Ability.OneForm
import Clearance.Proofs.Rule.Grammar

/-!
# Creating records

A record that is to be created does not exist yet, so that one often asks no more than whether
creating is possible. A rule that nobody can satisfy should therefore open nothing. The extension
for a form looks for the one constant that no record meets, and a rule is compiled to that constant
if it is a single leaf the principal has nothing for (`Clearance.RuleTree.IsBarren`). In every
other shape a rule that accepts no record is compiled to a condition of the same shape: below a
combinator the leaf is not seen, a disjunction without parts is none, and the rules of two entries
are joined.

`Clearance.Ability.extendForRecords_creation` tells both sides. On the kind, creating stays
impossible just when the list gives nothing or the only entry that counts is barren. On a record,
creating is allowed just when the list gives it, so that what accepts no record allows none either.
-/

namespace Clearance

open Outcome

/-! ### Barren rules -/

namespace RuleTree

/-- A **barren** rule: a single leaf for which the principal has nothing, no value in the category
or no group that counts. -/
inductive IsBarren (principal : Principal) : RuleTree → Prop
  /-- A comparison with no value. -/
  | compare {category : Uuid} {field : String} {operator : Operator}
      (h : principal.attributeValues category = []) :
      IsBarren principal (compare category field operator)
  /-- A shared group, and there is none. -/
  | share {named : List Uuid} (h : countedGroups principal named = []) :
      IsBarren principal (share named)

variable {principal : Principal} {tree : RuleTree}

/-- **The constant** that no record meets is what barren rules are compiled to, and only those. -/
theorem isNothing_condition_iff :
    (tree.condition principal).isNothing = true ↔ tree.IsBarren principal := by
  cases tree with
  | combine logic parts =>
    refine iff_of_false ?_ ?_
    · cases logic <;> simp [condition, Condition.isNothing]
    · rintro ⟨⟩
  | compare category field operator =>
    have hbarren : IsBarren principal (.compare category field operator) ↔
        principal.attributeValues category = [] := by
      refine ⟨fun h => ?_, .compare⟩
      cases h with
      | compare hnone => exact hnone
    rw [hbarren, condition, compareCondition]
    cases principal.attributeValues category <;> simp [Condition.isNothing, Condition.nothing]
  | share named =>
    have hbarren : IsBarren principal (.share named) ↔ countedGroups principal named = [] := by
      refine ⟨fun h => ?_, .share⟩
      cases h with
      | share hnone => exact hnone
    rw [hbarren, condition, shareCondition]
    cases countedGroups principal named <;> simp [Condition.isNothing, Condition.nothing]

end RuleTree

/-- A disjunction is the constant only as its single part. -/
theorem Condition.isNothing_any_iff {parts : List Condition} :
    (any parts).isNothing = true ↔ ∃ part, parts = [part] ∧ part.isNothing = true := by
  rcases parts with _ | ⟨part, _ | ⟨other, rest⟩⟩ <;> simp [any, isNothing]

namespace Listing

variable {limit : Int} {grants : List Grant} {type : PermissionType} {principal : Principal}
  {access : Condition}

/-- The condition that the rule of an entry is **compiled** to. -/
def Compiled (limit : Int) (principal : Principal) (grant : Grant) (condition : Condition) : Prop :=
  ∃ document tree, grant.access = some document ∧ RuleTree.read limit document = .ok tree ∧
    tree.condition principal = condition

/-- Entries that all carry rules have one condition each. -/
theorem forall₂_compiled {mine : List Grant} {conditions : List Condition}
    (hrules : ∀ grant ∈ mine, grant.access ≠ none)
    (h : (mine.filterMap (·.access)).mapM (entryCondition limit type principal) =
      .ok conditions) :
    List.Forall₂ (Compiled limit principal) mine conditions := by
  induction mine generalizing conditions with
  | nil =>
    obtain rfl : [] = conditions := Except.ok.inj h
    exact .nil
  | cons grant rest ih =>
    obtain ⟨hrule, hrest⟩ := List.forall_mem_cons.mp hrules
    obtain ⟨document, haccess⟩ := Option.ne_none_iff_exists'.mp hrule
    rw [List.filterMap_cons_some haccess] at h
    obtain ⟨part, others, hpart, hothers, rfl⟩ := mapM_cons_eq_ok.mp h
    rw [entryCondition] at hpart
    split at hpart
    · obtain ⟨tree, htree, hcondition⟩ := map_eq_ok.mp hpart
      exact .cons ⟨document, tree, haccess, htree, hcondition⟩ (ih hrest hothers)
    · cases hpart

/-- **What a list gives is the constant** just when one entry counts and its rule is barren. -/
theorem isNothing_of_recordAccess_iff
    (h : recordAccess limit grants type principal = .ok (some access)) :
    access.isNothing = true ↔ ∃ grant document tree, entriesOf grants type principal = [grant] ∧
      grant.access = some document ∧ RuleTree.read limit document = .ok tree ∧
        tree.IsBarren principal := by
  rw [recordAccess] at h
  split at h
  · next hempty =>
    -- without entries the list is for everybody, and no entry counts
    have hmine : entriesOf grants type principal = [] := by
      rw [entriesOf, List.isEmpty_iff.mp hempty, List.filter_nil]
    split at h
    · obtain rfl := Option.some.inj (Except.ok.inj h)
      simp [hmine, Condition.isNothing, Condition.everything]
    · cases h
  obtain ⟨conditions, hconditions, hfound⟩ := bind_eq_ok.mp h
  replace hfound := Except.ok.inj hfound
  split at hfound
  · next hany =>
    obtain rfl := Option.some.inj hfound
    refine iff_of_false (by simp [Condition.isNothing, Condition.everything]) ?_
    rintro ⟨grant, document, tree, hmine, haccess, -⟩
    rw [hmine] at hany
    simp [haccess] at hany
  · next hany =>
    split at hfound
    · cases hfound
    obtain rfl := Option.some.inj hfound
    have hentries := forall₂_compiled (by simpa using hany) hconditions
    rw [Condition.isNothing_any_iff]
    generalize entriesOf grants type principal = mine at hentries
    cases hentries with
    | nil => simp
    | @cons grant part rest parts hcompiled hrest =>
      obtain ⟨document, tree, haccess, htree, rfl⟩ := hcompiled
      cases hrest with
      | nil => simp [haccess, htree, RuleTree.isNothing_condition_iff]
      | cons _ _ => simp

end Listing

namespace Ability

open FormRecords

variable {limit : Int} {form : Entity} {ability extended : Ability} {principal : Principal}
  {record : Record}

/-! ### What an extension makes possible -/

/-- A form opens creating its records unless what its list gives is nothing or the constant. -/
theorem opens_create_iff {access : Condition} : Opens limit principal form .create access ↔
    Listing.recordAccess limit form.grants .canCreateRecords principal = .ok (some access) ∧
      access.isNothing = false := by
  constructor
  · rintro ⟨⟨type, htype, haccess⟩, hcreatable⟩
    obtain rfl := Option.some.inj htype
    exact ⟨haccess, hcreatable rfl⟩
  · rintro ⟨haccess, hnothing⟩
    exact ⟨⟨_, rfl, haccess⟩, fun _ => hnothing⟩

/-- **Creating records, exactly.** An ability for which no record can be created is extended for a
form. Creating stays impossible just when the list of the form gives nothing or one entry of it
counts whose rule is barren, and whatever the shape of the rules, a record is created just when
it is one of the form and the list gives it. So a list that gives something but accepts no record
lets none be created; yet, unless it is that one entry, creating has become possible. -/
theorem extendForRecords_creation (hprincipal : ability.principal = some principal)
    (hpossible : ability.possible .create .record = false)
    (h : ability.extendForRecords limit form = .ok extended) :
    ∃ found, Listing.recordAccess limit form.grants .canCreateRecords principal = .ok found ∧
      (extended.possible .create .record = false ↔ found = none ∨ ∃ grant document tree,
        Listing.entriesOf form.grants .canCreateRecords principal = [grant] ∧
          grant.access = some document ∧ RuleTree.read limit document = .ok tree ∧
          tree.IsBarren principal) ∧
      ∀ record, extended.allows .create (.record record) = .ok true ↔
        isSubmission form record = true ∧ Listing.Accepts found record := by
  obtain ⟨added, -, -, habout⟩ := exists_adds hprincipal h
  obtain ⟨rules, hrules, -⟩ := habout .create
  have htype : listFor? .create = some .canCreateRecords := rfl
  obtain ⟨found, hfound⟩ := exists_recordAccess_of_openingRules htype hpossible hrules
  refine ⟨found, hfound, ?_, fun record => ?_⟩
  · rw [← Bool.not_eq_true, possible_extendForRecords hprincipal h, hpossible]
    cases found with
    | none => simp [opens_create_iff, hfound]
    | some access =>
      rw [← Listing.isNothing_of_recordAccess_iff hfound]
      simp [opens_create_iff, hfound]
  · rw [allows_iff_of_not_possible hprincipal h htype hpossible, FormRecords.Lists, hfound]
    simp [Listing.Accepts]

/-- A rule that asks for a group shared with the user. -/
def sharedGroup : Value :=
  .object [("groups", .list [])]

/-- To a user without groups it opens nothing, and creating records stays impossible, though
another role may create them. -/
theorem extendForRecords_creation_singleLeaf :
    let principal : Principal := { userId := 1, roles := [{ id := 2 }] }
    let form : Entity := .form
      { id := some 3
        grants := [{ type := "canCreateRecords", roleId := 4 },
          { type := "canCreateRecords", roleId := 2, access := some sharedGroup }] }
    (base principal).possible .create .record = false ∧
      ∃ extended, (base principal).extendForRecords 32 form = .ok extended ∧
        extended.possible .create .record = false := by
  intro principal form
  have hprincipal : (base principal).principal = some principal := rfl
  have hpossible : (base principal).possible .create .record = false := by decide
  have hcomputed : ((base principal).extendForRecords 32 form).toOption.isSome = true := by
    decide +kernel
  obtain ⟨extended, hextended⟩ := Option.isSome_iff_exists.mp hcomputed
  rw [toOption_eq_some_iff] at hextended
  obtain ⟨found, -, hkind, -⟩ := extendForRecords_creation hprincipal hpossible hextended
  exact ⟨hpossible, extended, hextended,
    hkind.mpr (.inr ⟨_, _, .share [], rfl, rfl, rfl, .share rfl⟩)⟩

/-- The same rule below a combinator. -/
def nestedGroup : Value :=
  .object [("logic", .text "and"), ("rules", .list [sharedGroup])]

theorem read_nestedGroup : RuleTree.read 32 nestedGroup = .ok (.combine .and [.share []]) := by
  have hlogic : RuleTree.SpellsLogic (.text "and") .and :=
    RuleTree.logicOf?_eq_some_iff.mp (by decide +kernel)
  have hspells : RuleTree.Spells nestedGroup (.combine .and [.share []]) :=
    .combine rfl rfl hlogic rfl (.cons (RuleTree.spells_share rfl rfl .nil) .nil)
  exact RuleTree.read_eq_ok_iff.mpr ⟨hspells, by decide⟩

/-- **The rule below a combinator** accepts no record either, and with it creating records becomes
possible. -/
theorem extendForRecords_creation_nestedLeaf :
    let principal : Principal := { userId := 1, roles := [{ id := 2 }] }
    let form : Entity := .form
      { id := some 3
        grants := [{ type := "canCreateRecords", roleId := 2, access := some nestedGroup }] }
    (base principal).possible .create .record = false ∧
      (∃ access, Listing.recordAccess 32 form.grants .canCreateRecords principal =
          .ok (some access) ∧
        ∀ record, access.check (.record record) = .ok false) ∧
      ∃ extended, (base principal).extendForRecords 32 form = .ok extended ∧
        extended.possible .create .record = true := by
  intro principal form
  have hentry : Listing.entryCondition 32 .canCreateRecords principal nestedGroup =
      .ok (.allOf [.nothing]) := by
    change compileRule 32 principal nestedGroup = _
    rw [compileRule, read_nestedGroup]
    rfl
  have hgiven : Listing.recordAccess 32 form.grants .canCreateRecords principal =
      .ok (some (.allOf [.nothing])) :=
    bind_eq_ok.mpr ⟨_, mapM_cons_eq_ok.mpr ⟨_, _, hentry, rfl, rfl⟩, rfl⟩
  have hcomputed : ((base principal).extendForRecords 32 form).toOption.map
      (·.possible .create .record) = some true := by
    decide +kernel
  obtain ⟨extended, hextended, hcreates⟩ := Option.map_eq_some_iff.mp hcomputed
  exact ⟨by decide, ⟨_, hgiven, fun _ => rfl⟩, extended,
    toOption_eq_some_iff.mp hextended, hcreates⟩

end Ability

end Clearance
