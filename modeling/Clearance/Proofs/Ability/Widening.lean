import Clearance.Proofs.Ability.Submission

/-!
# More roles and groups

A principal is *within* another if both are the same user with the same position attributes and
the other has every role and group that the one has (`Clearance.Principal.IsWithin`). This file
follows what the lists of a form give to the one and to the other: the record access that the
other is given lets through every object that the one's lets through
(`Clearance.Listing.exists_recordAccess_of_isWithin`).

Rules are compiled with the groups and the values of the principal put in. A comparison has the
same values for both, since the attributes are the same; it would not do to have more of them,
for an operator may be negated. A leaf about groups has more groups to look for, and there is
no negation of rules above it. More roles bring more entries, which are joined by *or*.
-/

namespace Clearance

open Outcome

/-- A principal that is **within** another: the same user with the same attributes, and no role
or group that the other does not have. -/
structure Principal.IsWithin (principal other : Principal) : Prop where
  /-- They are the same user. -/
  userId : principal.userId = other.userId
  /-- They have the same values in every category. -/
  attributes : ∀ category, principal.attributeValues category = other.attributeValues category
  /-- Every role is one of the other's. -/
  roles : principal.roles ⊆ other.roles
  /-- Every group is one of the other's. -/
  groups : principal.groupIds ⊆ other.groupIds

namespace Principal.IsWithin

variable {principal other : Principal}

/-! ### What the roles add up to -/

theorem roleIds (h : principal.IsWithin other) : principal.roleIds ⊆ other.roleIds :=
  List.map_subset _ h.roles

theorem applicationIds (h : principal.IsWithin other) :
    principal.applicationIds ⊆ other.applicationIds :=
  List.filterMap_subset _ h.roles

theorem channelIds (h : principal.IsWithin other) : principal.channelIds ⊆ other.channelIds := by
  intro channel hchannel
  obtain ⟨role, hrole, hmem⟩ := List.mem_flatMap.mp hchannel
  exact List.mem_flatMap.mpr ⟨role, h.roles hrole, hmem⟩

theorem applicationsWith (h : principal.IsWithin other) (key : String) :
    principal.applicationsWith key ⊆ other.applicationsWith key :=
  List.filterMap_subset _ h.roles

theorem holds (h : principal.IsWithin other) {flag : GlobalFlag}
    (hflag : principal.holds flag = true) : other.holds flag = true := by
  rw [Principal.holds, Principal.hasGlobal, List.any_eq_true] at hflag ⊢
  obtain ⟨role, hrole, hcarries⟩ := hflag
  exact ⟨role, h.roles hrole, hcarries⟩

theorem holdsAny (h : principal.IsWithin other) {roleIds : List Uuid}
    (hany : principal.holdsAny roleIds = true) : other.holdsAny roleIds = true := by
  rw [Principal.holdsAny, List.any_eq_true] at hany ⊢
  obtain ⟨role, hrole, hmem⟩ := hany
  exact ⟨role, hrole, List.contains_iff_mem.mpr (h.roleIds (List.contains_iff_mem.mp hmem))⟩

end Principal.IsWithin

/-! ### Conditions -/

namespace Condition

variable {entity : Entity}

theorem eq_of_unlessFault {fault? : Option Fault} {found answer : Bool}
    (h : unlessFault fault? found = .ok answer) : found = answer := by
  cases fault? with
  | some fault => cases h
  | none => exact Except.ok.inj h

mutual

/-- **An answer is the truth**: a condition that meets no fault holds just when it says so. -/
theorem holds_of_check : ∀ {condition : Condition} {answer : Bool},
    condition.check entity = .ok answer → condition.holds entity = answer
  | always _, _, h | fieldEquals _ _, _, h | granted .., _, h => Except.ok.inj h
  | allOf parts, _, h => holdAll_of_checkAll h
  | anyOf parts, _, h => holdAny_of_checkAny h
  | not part, _, h => by
    obtain ⟨answer, hanswer, rfl⟩ := map_eq_ok.mp h
    rw [holds, holds_of_check hanswer]
  | fieldIn .., _, h | relatedIn .., _, h | dataField .., _, h => eq_of_unlessFault h

theorem holdAll_of_checkAll : ∀ {parts : List Condition} {answer : Bool},
    checkAll entity parts = .ok answer → holdAll entity parts = answer
  | [], _, h => Except.ok.inj h
  | part :: rest, answer, h => by
    rw [checkAll] at h
    rw [holdAll]
    cases hpart : part.check entity with
    | error fault => simp [hpart] at h
    | ok first =>
      rw [holds_of_check hpart]
      cases first with
      | true => exact holdAll_of_checkAll (by simpa [hpart] using h)
      | false => simpa [hpart] using h

theorem holdAny_of_checkAny : ∀ {parts : List Condition} {answer : Bool},
    checkAny entity parts = .ok answer → holdAny entity parts = answer
  | [], _, h => Except.ok.inj h
  | part :: rest, answer, h => by
    rw [checkAny] at h
    rw [holdAny]
    cases hpart : part.check entity with
    | error fault => simp [hpart] at h
    | ok first =>
      rw [holds_of_check hpart]
      cases first with
      | true => simpa [hpart] using h
      | false => exact holdAny_of_checkAny (by simpa [hpart] using h)

end

/-- More groups are shared with at least the objects that fewer are. -/
theorem cellRelated_of_subset {ids others : List Uuid} (h : ids ⊆ others) {cell : Cell}
    (hrelated : cellRelated ids cell = true) : cellRelated others cell = true := by
  cases cell with
  | related related =>
    rw [cellRelated, List.any_eq_true] at hrelated ⊢
    obtain ⟨id, hid, hmem⟩ := hrelated
    exact ⟨id, hid, List.contains_iff_mem.mpr (h (List.contains_iff_mem.mp hmem))⟩
  | _ => exact hrelated

end Condition

/-! ### Stored rules -/

namespace RuleTree

open Condition

variable {principal other : Principal} {entity : Entity}

/-- A group leaf looks for the groups that it counts, also where there are none. -/
theorem holds_shareCondition (named : List Uuid) :
    (shareCondition principal named).holds entity =
      cellRelated (countedGroups principal named) (entity.cell "groups") := by
  rw [shareCondition]
  cases hempty : (countedGroups principal named).isEmpty with
  | false => rfl
  | true =>
    rw [List.isEmpty_iff.mp hempty]
    cases entity.cell "groups" <;> simp [cellRelated, nothing, holds]

theorem countedGroups_subset (h : principal.IsWithin other) (named : List Uuid) :
    countedGroups principal named ⊆ countedGroups other named := by
  rw [countedGroups, countedGroups]
  split
  · exact h.groups
  · exact List.filter_subset _ h.groups

mutual

/-- **A stored rule lets through at least as much** for a principal with more groups. -/
theorem holds_condition (h : principal.IsWithin other) : ∀ tree : RuleTree,
    (condition principal tree).holds entity = true → (condition other tree).holds entity = true
  | combine .and parts => by
    rw [condition, condition, holds, holds]
    exact holdAll_conditions h parts
  | combine .or parts => by
    rw [condition, condition, holds, holds]
    exact holdAny_conditions h parts
  | compare category field operator => by
    rw [condition, condition, compareCondition, compareCondition, h.attributes category]
    exact id
  | share named => by
    rw [condition, condition, holds_shareCondition, holds_shareCondition]
    exact cellRelated_of_subset (countedGroups_subset h named)

theorem holdAll_conditions (h : principal.IsWithin other) : ∀ trees : List RuleTree,
    holdAll entity (conditions principal trees) = true →
      holdAll entity (conditions other trees) = true
  | [] => id
  | tree :: rest => by
    simp only [conditions, holdAll, Bool.and_eq_true]
    exact And.imp (holds_condition h tree) (holdAll_conditions h rest)

theorem holdAny_conditions (h : principal.IsWithin other) : ∀ trees : List RuleTree,
    holdAny entity (conditions principal trees) = true →
      holdAny entity (conditions other trees) = true
  | [] => id
  | tree :: rest => by
    simp only [conditions, holdAny, Bool.or_eq_true]
    exact Or.imp (holds_condition h tree) (holdAny_conditions h rest)

end

end RuleTree

/-! ### Lists -/

namespace Listing

variable {limit : Int} {grants : List Grant} {type : PermissionType} {principal other : Principal}
  {found : Option Condition} {entity : Entity}

theorem entriesOf_subset (h : principal.IsWithin other) :
    entriesOf grants type principal ⊆ entriesOf grants type other := by
  intro grant hgrant
  obtain ⟨hentry, hrole⟩ := List.mem_filter.mp hgrant
  exact List.mem_filter.mpr
    ⟨hentry, List.contains_iff_mem.mpr (h.roleIds (List.contains_iff_mem.mp hrole))⟩

theorem admits_of_isWithin (h : principal.IsWithin other)
    (hadmits : admits grants type principal = true) : admits grants type other = true := by
  rw [admits] at hadmits ⊢
  split at hadmits
  · next hempty => rw [if_pos hempty, hadmits]
  · next hempty => rw [if_neg hempty, h.holdsAny hadmits]

/-- **What an entry lets through**: every object if it has no rule, and otherwise those that
the condition of its rule holds of. -/
def LetsThrough (limit : Int) (principal : Principal) (entity : Entity) (grant : Grant) : Prop :=
  ∀ document ∈ grant.access, ∃ tree, RuleTree.read limit document = .ok tree ∧
    (tree.condition principal).holds entity = true

/-- The condition of an entry holds of what the entry lets through. -/
theorem letsThrough_iff {grant : Grant} {document : Value} {part : Condition}
    (haccess : grant.access = some document)
    (hpart : entryCondition limit type principal document = .ok part) :
    LetsThrough limit principal entity grant ↔ part.holds entity = true := by
  rw [entryCondition] at hpart
  split at hpart
  · obtain ⟨tree, htree, rfl⟩ := map_eq_ok.mp hpart
    simp [LetsThrough, haccess, htree]
  · cases hpart

/-- **What a list gives** holds of an object just when one of its entries for the principal lets
the object through, or there are no entries and the list is open then. -/
theorem holds_recordAccess_iff (h : recordAccess limit grants type principal = .ok found) :
    (∃ access ∈ found, access.holds entity = true) ↔
      (entries grants type = [] ∧ type.openWhenEmpty = true) ∨
        ∃ grant ∈ entriesOf grants type principal, LetsThrough limit principal entity grant := by
  rw [recordAccess] at h
  split at h
  · next hempty =>
    have hnil : entries grants type = [] := List.isEmpty_iff.mp hempty
    obtain rfl := Except.ok.inj h
    cases type.openWhenEmpty <;> simp [hnil, entriesOf, Condition.everything, Condition.holds]
  · next hentries =>
    have hne : entries grants type ≠ [] := fun hnil => hentries (List.isEmpty_iff.mpr hnil)
    obtain ⟨conditions, hconditions, hfound⟩ := bind_eq_ok.mp h
    obtain rfl := Except.ok.inj hfound
    simp only [hne, false_and, false_or]
    split
    · next hany =>
      -- an entry without a rule lets everything through
      obtain ⟨grant, hgrant, hnone⟩ := List.any_eq_true.mp hany
      refine iff_of_true ⟨.everything, rfl, rfl⟩ ⟨grant, hgrant, ?_⟩
      intro document hdocument
      rw [Option.isNone_iff_eq_none.mp hnone] at hdocument
      cases hdocument
    · next hany =>
      have hrules : ∀ grant ∈ entriesOf grants type principal, ∃ document,
          grant.access = some document := by
        intro grant hgrant
        refine Option.ne_none_iff_exists'.mp fun hnone => hany ?_
        exact List.any_eq_true.mpr ⟨grant, hgrant, by rw [hnone]; rfl⟩
      have hjoined :
          (∃ access ∈ if conditions.isEmpty then none else some (Condition.any conditions),
            access.holds entity = true) ↔ ∃ part ∈ conditions, part.holds entity = true := by
        cases conditions with
        | nil => simp
        | cons part rest => simp [Condition.holds_any]
      rw [hjoined]
      constructor
      · rintro ⟨part, hpart, hholds⟩
        obtain ⟨document, hdocument, hentry⟩ := ((mapM_eq_ok hconditions).2 _).mp hpart
        obtain ⟨grant, hgrant, haccess⟩ := List.mem_filterMap.mp hdocument
        exact ⟨grant, hgrant, (letsThrough_iff haccess hentry).mpr hholds⟩
      · rintro ⟨grant, hgrant, hlets⟩
        obtain ⟨document, haccess⟩ := hrules grant hgrant
        have hdocument := List.mem_filterMap.mpr ⟨grant, hgrant, haccess⟩
        obtain ⟨part, hentry⟩ := (mapM_eq_ok hconditions).1 document hdocument
        exact ⟨part, ((mapM_eq_ok hconditions).2 _).mpr ⟨document, hdocument, hentry⟩,
          (letsThrough_iff haccess hentry).mp hlets⟩

/-- **More roles and groups are given at least as much**: where the lists of both can be read,
what the one is given that holds of an object comes with something the other is given. -/
theorem exists_recordAccess_of_isWithin (h : principal.IsWithin other)
    {foundOther : Option Condition} (hfound : recordAccess limit grants type principal = .ok found)
    (hother : recordAccess limit grants type other = .ok foundOther)
    (hholds : ∃ access ∈ found, access.holds entity = true) :
    ∃ access ∈ foundOther, access.holds entity = true := by
  rw [holds_recordAccess_iff hother]
  refine ((holds_recordAccess_iff hfound).mp hholds).imp_right ?_
  rintro ⟨grant, hgrant, hlets⟩
  refine ⟨grant, entriesOf_subset h hgrant, fun document hdocument => ?_⟩
  obtain ⟨tree, htree, htrue⟩ := hlets document hdocument
  exact ⟨tree, htree, RuleTree.holds_condition h tree htrue⟩

end Listing

end Clearance
