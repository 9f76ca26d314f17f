import Clearance.Proofs.Ability.Widening
import Clearance.Proofs.Rule.Meaning

/-!
# The entries of a list

What a list of an object gives to a principal is computed in one walk over its entries. This
file says what comes of it entry by entry, with no regard to where an entry stands.

Only the entries for the roles of the principal *count* (`Clearance.Listing.Counts`). One of
them is *corrupt* if it carries a rule that its type does not accept or that cannot be read
(`Clearance.Listing.IsCorrupt`), and one such entry spoils the whole list, even next to entries
without rules. Otherwise an entry *lets in* the records that its rule accepts
(`Clearance.Listing.LetsIn`). A list without any entry is another matter than a list with none
that counts: the first is for everybody if its type is open, the second for nobody.

A condition that stored rules are compiled to has an answer on every record whose data has
fields; on other data it depends on the order of the rules whether one is found
(`Clearance.Listing.recordAccess_exact`).
-/

namespace Clearance

open Outcome

/-! ### Answers -/

namespace Condition

variable {entity : Entity} {parts : List Condition}

/-- If a disjunction says yes, one of its parts does, -/
theorem exists_of_checkAny (h : checkAny entity parts = .ok true) :
    ∃ part ∈ parts, part.check entity = .ok true := by
  induction parts with
  | nil => simp [checkAny] at h
  | cons part rest ih =>
    rw [checkAny] at h
    split at h
    · obtain ⟨other, hother, hyes⟩ := ih h
      exact ⟨other, List.mem_cons_of_mem _ hother, hyes⟩
    · exact ⟨part, List.mem_cons_self, h⟩

/-- also if it is the only one. -/
theorem exists_of_check_any (h : (Condition.any parts).check entity = .ok true) :
    ∃ part ∈ parts, part.check entity = .ok true := by
  rcases parts with _ | ⟨part, _ | ⟨other, rest⟩⟩
  · exact exists_of_checkAny h
  · exact ⟨part, List.mem_singleton_self part, h⟩
  · exact exists_of_checkAny h

/-- A disjunction has an answer where all its parts have. -/
theorem exists_checkAny (h : ∀ part ∈ parts, ∃ answer, part.check entity = .ok answer) :
    ∃ answer, checkAny entity parts = .ok answer := by
  induction parts with
  | nil => exact ⟨false, rfl⟩
  | cons part rest ih =>
    obtain ⟨⟨answer, hanswer⟩, hrest⟩ := List.forall_mem_cons.mp h
    cases answer with
    | true => exact ⟨true, by rw [checkAny, hanswer]⟩
    | false =>
      obtain ⟨others, hothers⟩ := ih hrest
      exact ⟨others, by rw [checkAny, hanswer]; exact hothers⟩

/-- So has one that is its only part. -/
theorem exists_check_any (h : ∀ part ∈ parts, ∃ answer, part.check entity = .ok answer) :
    ∃ answer, (Condition.any parts).check entity = .ok answer := by
  rcases parts with _ | ⟨part, _ | ⟨other, rest⟩⟩
  · exact exists_checkAny h
  · exact h part (List.mem_singleton_self part)
  · exact exists_checkAny h

end Condition

namespace Listing

variable {limit : Int} {grants others : List Grant} {type : PermissionType}
  {principal : Principal} {found : Option Condition} {record : Record}

/-! ### Entries -/

/-- An entry that **counts** for a principal: it stands under the type, for one of the
principal's roles. -/
def Counts (type : PermissionType) (principal : Principal) (grant : Grant) : Prop :=
  grant.type = type.key ∧ grant.roleId ∈ principal.roleIds

/-- A **corrupt** entry: it carries a rule that the type does not accept or that cannot be
read. -/
def IsCorrupt (limit : Int) (type : PermissionType) (grant : Grant) : Prop :=
  ∃ document, grant.access = some document ∧
    (type.acceptsRules = false ∨ ∃ error, RuleTree.read limit document = .error error)

/-- **What an entry lets in**: every record if it has no rule, and otherwise those that its
rule accepts once it is compiled for the principal. -/
def LetsIn (limit : Int) (principal : Principal) (record : Record) (grant : Grant) : Prop :=
  grant.access = none ∨ ∃ document condition, grant.access = some document ∧
    compileRule limit principal document = .ok condition ∧
    condition.check (.record record) = .ok true

theorem mem_entries {grant : Grant} :
    grant ∈ entries grants type ↔ grant ∈ grants ∧ grant.type = type.key := by
  rw [entries, List.mem_filter, beq_iff_eq]

theorem mem_entriesOf {grant : Grant} :
    grant ∈ entriesOf grants type principal ↔ grant ∈ grants ∧ Counts type principal grant := by
  rw [entriesOf, List.mem_filter, mem_entries, List.contains_iff_mem, Counts, and_assoc]

theorem entries_eq_nil_iff :
    entries grants type = [] ↔ ∀ grant ∈ grants, grant.type ≠ type.key := by
  simp [entries]

/-- What an entry lets in, it lets through. -/
theorem LetsIn.letsThrough {grant : Grant} (h : LetsIn limit principal record grant) :
    LetsThrough limit principal (.record record) grant := by
  intro document hdocument
  rcases h with hnone | ⟨rule, condition, hrule, hcondition, hcheck⟩
  · cases hnone.symm.trans hdocument
  · obtain rfl := Option.some.inj (hrule.symm.trans hdocument)
    obtain ⟨tree, htree, rfl⟩ := map_eq_ok.mp hcondition
    exact ⟨tree, htree, Condition.holds_of_check hcheck⟩

/-- The rule of an entry is an error just when the entry is corrupt. -/
theorem exists_entryCondition_error_iff {document : Value} :
    (∃ error, entryCondition limit type principal document = .error error) ↔
      type.acceptsRules = false ∨ ∃ error, RuleTree.read limit document = .error error := by
  rw [entryCondition]
  cases type.acceptsRules <;> simp [compileRule, map_eq_error]

/-! ### The walk -/

/-- **One corrupt entry that counts spoils the list**, and nothing else does. -/
theorem exists_recordAccess_error_iff :
    (∃ error, recordAccess limit grants type principal = .error error) ↔
      ∃ grant ∈ grants, Counts type principal grant ∧ IsCorrupt limit type grant := by
  rw [recordAccess]
  split
  · next hempty =>
    have hnil := entries_eq_nil_iff.mp (List.isEmpty_iff.mp hempty)
    refine iff_of_false (by simp) ?_
    rintro ⟨grant, hgrant, ⟨htype, -⟩, -⟩
    exact hnil grant hgrant htype
  · constructor
    · rintro ⟨error, herror⟩
      rcases bind_eq_error.mp herror with herror | ⟨conditions, -, herror⟩
      · obtain ⟨document, hdocument, herror⟩ := mapM_eq_error herror
        obtain ⟨grant, hgrant, haccess⟩ := List.mem_filterMap.mp hdocument
        obtain ⟨hmem, hcounts⟩ := mem_entriesOf.mp hgrant
        exact ⟨grant, hmem, hcounts, document, haccess,
          exists_entryCondition_error_iff.mp ⟨error, herror⟩⟩
      · cases herror
    · rintro ⟨grant, hmem, hcounts, document, haccess, hcorrupt⟩
      obtain ⟨error, herror⟩ := exists_entryCondition_error_iff.mpr hcorrupt
      have hdocument := List.mem_filterMap.mpr
        ⟨grant, mem_entriesOf.mpr ⟨hmem, hcounts⟩, haccess⟩
      rcases hwalk : ((entriesOf grants type principal).filterMap (·.access)).mapM
        (entryCondition limit type principal) with first | conditions
      · exact ⟨first, by simp only [hwalk]; rfl⟩
      · -- a walk that has come to its end has found no error
        obtain ⟨condition, hcondition⟩ := (mapM_eq_ok hwalk).1 document hdocument
        cases herror.symm.trans hcondition

/-- **Nothing is given** if no entry counts, unless there is none and the list is open. -/
theorem recordAccess_eq_none_iff (h : recordAccess limit grants type principal = .ok found) :
    found = none ↔ (∀ grant ∈ grants, ¬ Counts type principal grant) ∧
      ((∃ grant ∈ grants, grant.type = type.key) ∨ type.openWhenEmpty = false) := by
  have hmine : entriesOf grants type principal = [] ↔
      ∀ grant ∈ grants, ¬ Counts type principal grant := by
    simp [List.eq_nil_iff_forall_not_mem, mem_entriesOf]
  have hsome : entries grants type ≠ [] ↔ ∃ grant ∈ grants, grant.type = type.key := by
    simp [entries_eq_nil_iff]
  rw [← hmine, ← hsome]
  rw [recordAccess] at h
  split at h
  · next hempty =>
    have hnil : entries grants type = [] := List.isEmpty_iff.mp hempty
    obtain rfl := Except.ok.inj h
    cases type.openWhenEmpty <;> simp [hnil, entriesOf]
  · next hentries =>
    have hne : entries grants type ≠ [] := fun hnil => hentries (List.isEmpty_iff.mpr hnil)
    obtain ⟨conditions, hconditions, hfound⟩ := bind_eq_ok.mp h
    obtain rfl := Except.ok.inj hfound
    simp only [hne, ne_eq, not_false_eq_true, true_or, and_true]
    cases hentry : entriesOf grants type principal with
    | nil =>
      rw [hentry] at hconditions
      obtain rfl : [] = conditions := Except.ok.inj hconditions
      simp
    | cons grant rest =>
      refine iff_of_false ?_ (by simp)
      rw [hentry] at hconditions
      split
      · simp
      · next hany =>
        -- the first entry carries a rule, so there is a condition
        have hrule : grant.access ≠ none := fun hnone => hany (by simp [hnone])
        obtain ⟨document, haccess⟩ := Option.ne_none_iff_exists'.mp hrule
        have hdocument : document ∈ (grant :: rest).filterMap (·.access) :=
          List.mem_filterMap.mpr ⟨grant, List.mem_cons_self, haccess⟩
        obtain ⟨condition, hcondition⟩ := (mapM_eq_ok hconditions).1 document hdocument
        have hmem := ((mapM_eq_ok hconditions).2 condition).mpr ⟨document, hdocument, hcondition⟩
        rw [if_neg (by simpa using List.ne_nil_of_mem hmem)]
        simp

/-! ### What it gives -/

/-- **What a list gives accepts a record**: there is a condition, and it says yes. -/
def Accepts (found : Option Condition) (record : Record) : Prop :=
  ∃ access ∈ found, access.check (.record record) = .ok true

/-- **What a list gives answers** about a record: the condition, if there is one, says yes or
no. -/
def Answers (found : Option Condition) (record : Record) : Prop :=
  ∀ access ∈ found, ∃ answer, access.check (.record record) = .ok answer

/-- A list that is **for everybody**: its type is open, and nobody is listed under it. -/
def IsUnlisted (grants : List Grant) (type : PermissionType) : Prop :=
  (∀ grant ∈ grants, grant.type ≠ type.key) ∧ type.openWhenEmpty = true

theorem answers_of_recordAccess (h : recordAccess limit grants type principal = .ok found)
    (hdata : Condition.dataFault? record.data = none) : Answers found record := by
  rintro access rfl
  rcases recordAccess_cases h with ⟨rfl, -⟩ | ⟨conditions, rfl, hconditions⟩
  · exact ⟨true, rfl⟩
  · refine Condition.exists_check_any fun part hpart => ?_
    obtain ⟨-, -, -, tree, -, -, rfl⟩ := hconditions part hpart
    -- a compiled rule has an answer
    obtain ⟨answer, hanswer, -⟩ := RuleTree.says_condition hdata tree
    exact ⟨answer, hanswer⟩

/-- **What a list gives** accepts a record just when some entry that counts lets it in, or there
are no entries and the list is open, provided that it has an answer at all. -/
theorem accepts_iff (h : recordAccess limit grants type principal = .ok found)
    (hanswers : Answers found record) :
    Accepts found record ↔ IsUnlisted grants type ∨
      ∃ grant ∈ grants, Counts type principal grant ∧ LetsIn limit principal record grant := by
  rw [IsUnlisted, ← entries_eq_nil_iff]
  constructor
  · rintro ⟨access, rfl, hcheck⟩
    rcases recordAccess_cases h with
      ⟨-, hopen | ⟨grant, hgrant, hnone⟩⟩ | ⟨conditions, rfl, hconditions⟩
    · exact .inl hopen
    · obtain ⟨hmem, hcounts⟩ := mem_entriesOf.mp hgrant
      exact .inr ⟨grant, hmem, hcounts, .inl hnone⟩
    · obtain ⟨part, hpart, hyes⟩ := Condition.exists_of_check_any hcheck
      obtain ⟨grant, hgrant, document, tree, haccess, htree, rfl⟩ := hconditions part hpart
      obtain ⟨hmem, hcounts⟩ := mem_entriesOf.mp hgrant
      refine .inr ⟨grant, hmem, hcounts, .inr ⟨document, _, haccess, ?_, hyes⟩⟩
      rw [compileRule, htree]
      rfl
  · intro hlets
    -- what an entry lets in holds, and an answer is the truth
    have hholds : ∃ access ∈ found, access.holds (.record record) = true := by
      refine (holds_recordAccess_iff h).mpr (hlets.imp_right ?_)
      rintro ⟨grant, hmem, hcounts, hin⟩
      exact ⟨grant, mem_entriesOf.mpr ⟨hmem, hcounts⟩, hin.letsThrough⟩
    obtain ⟨access, haccess, htrue⟩ := hholds
    obtain ⟨answer, hchecked⟩ := hanswers access haccess
    obtain rfl : answer = true := (Condition.holds_of_check hchecked).symm.trans htrue
    exact ⟨access, haccess, hchecked⟩

/-- **What a list gives to a principal**, entry by entry. It is an error just when an entry that
counts is corrupt, wherever it stands and whatever the other entries are. Otherwise it is nothing
just when no entry counts, unless there are none and the type is open; and it accepts the records
that some entry that counts lets in, or every record if there are no entries and the type is
open. On a record whose data has fields it has an answer. None of this depends on the order of
the entries. -/
theorem recordAccess_exact (limit : Int) (grants : List Grant) (type : PermissionType)
    (principal : Principal) :
    ((∃ error, recordAccess limit grants type principal = .error error) ↔
      ∃ grant ∈ grants, Counts type principal grant ∧ IsCorrupt limit type grant) ∧
    (∀ found, recordAccess limit grants type principal = .ok found →
      (found = none ↔ (∀ grant ∈ grants, ¬ Counts type principal grant) ∧
        ((∃ grant ∈ grants, grant.type = type.key) ∨ type.openWhenEmpty = false)) ∧
      ∀ record, (Condition.dataFault? record.data = none → Answers found record) ∧
        (Answers found record → (Accepts found record ↔ IsUnlisted grants type ∨
          ∃ grant ∈ grants, Counts type principal grant ∧ LetsIn limit principal record grant))) ∧
    ∀ others, grants.Perm others →
      ((∃ error, recordAccess limit others type principal = .error error) ↔
        ∃ error, recordAccess limit grants type principal = .error error) ∧
      ∀ found foundOthers, recordAccess limit grants type principal = .ok found →
        recordAccess limit others type principal = .ok foundOthers →
        (foundOthers = none ↔ found = none) ∧
        ∀ record, Answers found record → Answers foundOthers record →
          (Accepts foundOthers record ↔ Accepts found record) := by
  refine ⟨exists_recordAccess_error_iff, fun found hfound => ?_, fun others hperm => ?_⟩
  · exact ⟨recordAccess_eq_none_iff hfound, fun record =>
      ⟨answers_of_recordAccess hfound, accepts_iff hfound⟩⟩
  · -- the same entries stand in both lists, and only that is asked about
    refine ⟨?_, fun found foundOthers hfound hothers =>
      ⟨?_, fun record hanswers hanswersOthers => ?_⟩⟩
    · simp only [exists_recordAccess_error_iff, hperm.mem_iff]
    · simp only [recordAccess_eq_none_iff hfound, recordAccess_eq_none_iff hothers, hperm.mem_iff]
    · simp only [accepts_iff hfound hanswers, accepts_iff hothers hanswersOthers, IsUnlisted,
        hperm.mem_iff]

/-- An entry that shows the records shared with the group 8 to the role 2. -/
def groupEntry : Grant where
  type := "canSeeRecords"
  roleId := 2
  access := some (.object [("groups", .list [.text "00000000-0000-0000-0000-000000000008"])])

/-- It stands between one for the role 4 that cannot be read and one that shows all records to the
role 3. -/
def mixedEntries : List Grant :=
  [{ type := "canSeeRecords", roleId := 4, access := some (.text "all") }, groupEntry,
    { type := "canSeeRecords", roleId := 3 }]

/-- A principal with the role 2 sees the records of its group and no others, and one with all three
roles has an error, in whatever order the entries stand. -/
theorem recordAccess_exact_mixedEntries :
    let principal (roles : List Uuid) : Principal :=
      { userId := 1, roles := roles.map fun id => { id := id }, groupIds := [8] }
    (∃ found, recordAccess 32 mixedEntries .canSeeRecords (principal [2]) = .ok found ∧
      Accepts found { data := .object [], groupIds := [7, 8] } ∧
      ¬ Accepts found { data := .object [], groupIds := [7] }) ∧
    ∀ others, mixedEntries.Perm others →
      ∃ error, recordAccess 32 others .canSeeRecords (principal [2, 3, 4]) = .error error := by
  intro principal
  constructor
  · obtain ⟨-, hgiven, -⟩ := recordAccess_exact 32 mixedEntries .canSeeRecords (principal [2])
    obtain ⟨found, hfound⟩ : ∃ found,
        recordAccess 32 mixedEntries .canSeeRecords (principal [2]) = .ok found :=
      ⟨_, rfl⟩
    have hcompiled : compileRule 32 (principal [2]) (.object [("groups",
        .list [.text "00000000-0000-0000-0000-000000000008"])]) =
          .ok (.relatedIn "groups" [8]) := by
      have hid : Uuid.read? "00000000-0000-0000-0000-000000000008" = some 8 := by decide +kernel
      have hspells : RuleTree.Spells (.object [("groups",
          .list [.text "00000000-0000-0000-0000-000000000008"])]) (.share [8]) :=
        RuleTree.spells_share rfl rfl (.cons (RuleTree.spellsId_text hid) .nil)
      rw [compileRule, RuleTree.read_eq_ok_iff.mpr ⟨hspells, by decide⟩]
      rfl
    have haccepts : ∀ groups : List Uuid,
        Accepts found { data := .object [], groupIds := groups } ↔ 8 ∈ groups := by
      intro groups
      obtain ⟨hanswers, hiff⟩ := (hgiven found hfound).2 { data := .object [], groupIds := groups }
      have hlets : LetsIn 32 (principal [2]) { data := .object [], groupIds := groups } groupEntry ↔
          8 ∈ groups := by
        have hcheck : (Condition.relatedIn "groups" [8]).check
            (.record { data := .object [], groupIds := groups }) =
              .ok (groups.any [8].contains) := rfl
        simp only [LetsIn, groupEntry, reduceCtorEq, Option.some.injEq, false_or, exists_and_left,
          exists_eq_left', hcompiled, Except.ok.injEq, hcheck]
        simp
      rw [hiff (hanswers rfl), ← hlets]
      -- the other two entries are for roles that the principal lacks
      have hroles : (principal [2]).roleIds = [2] := rfl
      simp +decide [IsUnlisted, mixedEntries, Counts, groupEntry, hroles]
    exact ⟨found, hfound, (haccepts [7, 8]).mpr (by decide), fun h => by
      simpa +decide using (haccepts [7]).mp h⟩
  · intro others hperm
    obtain ⟨herror, -, horder⟩ :=
      recordAccess_exact 32 mixedEntries .canSeeRecords (principal [2, 3, 4])
    refine (horder others hperm).1.mpr (herror.mpr ?_)
    exact ⟨_, List.mem_cons_self, ⟨rfl, by decide⟩, _, rfl, .inr ⟨_, rfl⟩⟩

end Listing

end Clearance
