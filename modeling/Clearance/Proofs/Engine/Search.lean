import Clearance.Engine.Search
import Clearance.Proofs.Filter.Leaf
import Clearance.Proofs.Filter.Meaning
import Clearance.Proofs.Outcome

/-!
# Searches by a plan

An engine that plans its searches evaluates the parts of a filter in an order of its own, leaves
some of them out and asks others twice. All this decides only which fault is met. If no leaf of a
filter can have a fault on the rows that are searched (`Clearance.Filter.IsClear`), the way of
searching does not matter: the filter means the same from left to right
(`Clearance.Filter.meets_of_isClear`), a search has no fault whatever locates the rows
(`Clearance.Filter.exists_search`), and so the engine carries out every search with a filter
that keeps to its bounds (`Clearance.Engine.carriesOut_planning`).
-/

namespace Clearance

open Outcome

namespace Filter

variable {longest : Nat} {parts : List Filter} {filter : Filter}

/-! ### Evaluating from the left -/

variable {row : Entity}

mutual

/-- What a filter comes out as from the left is what it means. -/
theorem eval_of_meets : ∀ {filter : Filter} {answer : Truth},
    meets longest row filter = .ok answer → eval row filter = answer
  | all parts, answer, h => by
    rw [eval]
    exact evalAll_of_meetsAll h
  | any parts, answer, h => by
    rw [eval]
    exact evalAny_of_meetsAny h
  | not part, answer, h => by
    obtain ⟨inner, hinner, rfl⟩ := map_eq_ok.mp h
    rw [eval, eval_of_meets hinner]
  | memberPresent field, answer, h | memberIsText field, answer, h
  | memberAmong field texts, answer, h => by
    rw [meets, searched] at h
    split at h
    · simp at h
    · exact Except.ok.inj h
  | memberLike field pattern, answer, h => by
    rw [meets, compared] at h
    split at h
    · simp at h
    · rw [searched] at h
      split at h
      · simp at h
      · exact Except.ok.inj h
  | constant _, answer, h | settled _, answer, h | present _, answer, h | absent _, answer, h
  | equals .., answer, h | among .., answer, h | refused .., answer, h
  | relatedExists .., answer, h | grantExists .., answer, h => by
    rw [meets] at h
    · exact Except.ok.inj h
    all_goals simp

theorem evalAll_of_meetsAll : ∀ {parts : List Filter} {answer : Truth},
    meetsAll longest row parts = .ok answer → evalAll row parts = answer
  | [], answer, h => Except.ok.inj h
  | part :: rest, answer, h => by
    rw [meetsAll] at h
    rw [evalAll_cons]
    split at h
    · next hpart =>
      rw [eval_of_meets hpart, Truth.false_and]
      exact Except.ok.inj h
    · next first _ hpart =>
      obtain ⟨others, hothers, rfl⟩ := map_eq_ok.mp h
      rw [eval_of_meets hpart, evalAll_of_meetsAll hothers]
    · simp at h

theorem evalAny_of_meetsAny : ∀ {parts : List Filter} {answer : Truth},
    meetsAny longest row parts = .ok answer → evalAny row parts = answer
  | [], answer, h => Except.ok.inj h
  | part :: rest, answer, h => by
    rw [meetsAny] at h
    rw [evalAny_cons]
    split at h
    · next hpart =>
      rw [eval_of_meets hpart, Truth.true_or]
      exact Except.ok.inj h
    · next first _ hpart =>
      obtain ⟨others, hothers, rfl⟩ := map_eq_ok.mp h
      rw [eval_of_meets hpart, evalAny_of_meetsAny hothers]
    · simp at h

end

/-- A leaf is **answered** on a row that holds no document it cannot look into. -/
def IsAnswered (longest : Nat) (row : Entity) (leaf : Filter) : Prop :=
  ∃ answer, leaf.meets longest row = .ok answer

/-- A filter is **clear** of faults on a row when each of its leaves is answered. -/
abbrev IsClear (longest : Nat) (row : Entity) : Filter → Prop :=
  EachLeaf (IsAnswered longest row)

theorem isAnswered_settled (value : Bool) : IsAnswered longest row (settled value) :=
  ⟨_, rfl⟩

mutual

theorem exists_meets : ∀ {filter : Filter}, IsClear longest row filter →
    ∃ answer, meets longest row filter = .ok answer
  | all parts, h => by
    rw [meets]
    exact exists_meetsAll h
  | any parts, h => by
    rw [meets]
    exact exists_meetsAny h
  | not part, h => by
    obtain ⟨answer, hanswer⟩ := exists_meets (show IsClear longest row part from h)
    exact ⟨answer.not, by rw [meets, hanswer]; rfl⟩
  | constant _, h | settled _, h | present _, h | absent _, h | equals .., h | among .., h
  | refused .., h | relatedExists .., h | grantExists .., h | memberPresent _, h
  | memberIsText _, h | memberAmong .., h | memberLike .., h => h

theorem exists_meetsAll : ∀ {parts : List Filter}, EachLeafOf (IsAnswered longest row) parts →
    ∃ answer, meetsAll longest row parts = .ok answer
  | [], _ => ⟨_, rfl⟩
  | part :: rest, h => by
    obtain ⟨first, hfirst⟩ := exists_meets h.1
    obtain ⟨others, hothers⟩ := exists_meetsAll h.2
    rw [meetsAll, hfirst, hothers]
    rcases first with _ | _ | _ <;> exact ⟨_, rfl⟩

theorem exists_meetsAny : ∀ {parts : List Filter}, EachLeafOf (IsAnswered longest row) parts →
    ∃ answer, meetsAny longest row parts = .ok answer
  | [], _ => ⟨_, rfl⟩
  | part :: rest, h => by
    obtain ⟨first, hfirst⟩ := exists_meets h.1
    obtain ⟨others, hothers⟩ := exists_meetsAny h.2
    rw [meetsAny, hfirst, hothers]
    rcases first with _ | _ | _ <;> exact ⟨_, rfl⟩

end

/-- **A clear filter** comes out from the left as what it means. -/
theorem meets_of_isClear (h : IsClear longest row filter) :
    meets longest row filter = .ok (eval row filter) := by
  obtain ⟨answer, hanswer⟩ := exists_meets h
  rw [hanswer, eval_of_meets hanswer]

/-! ### Searching -/

theorem exists_inTurn : ∀ {answers : List (Except Fault Truth)},
    (∀ answer ∈ answers, ∃ truth, answer = .ok truth) → ∃ truth, inTurn answers = .ok truth
  | [], _ => ⟨_, rfl⟩
  | first :: rest, h => by
    obtain ⟨⟨truth, rfl⟩, hrest⟩ := List.forall_mem_cons.mp h
    obtain ⟨others, hothers⟩ := exists_inTurn hrest
    rcases truth with _ | _ | _
    · exact ⟨_, rfl⟩
    · exact ⟨_, rfl⟩
    · exact ⟨others, hothers⟩

theorem exists_together : ∀ {answers : List (Except Fault Truth)},
    (∀ answer ∈ answers, ∃ truth, answer = .ok truth) → ∃ truth, together answers = .ok truth
  | [], _ => ⟨_, rfl⟩
  | first :: rest, h => by
    obtain ⟨⟨truth, rfl⟩, hrest⟩ := List.forall_mem_cons.mp h
    obtain ⟨others, hothers⟩ := exists_together hrest
    exact ⟨truth.or others, by rw [together, hothers]; rfl⟩

theorem mem_of_mem_inStages {locator : Option Locator} {part : Filter} {isLocator : Bool}
    (h : (part, isLocator) ∈ inStages locator parts) : part ∈ parts := by
  obtain ⟨stage, -, h⟩ := List.mem_flatMap.mp h
  obtain ⟨⟨other, place⟩, hother, heq⟩ := List.mem_map.mp (List.mem_filter.mp h).1
  obtain rfl : other = part := congrArg Prod.fst heq
  exact List.fst_mem_of_mem_zipIdx hother

theorem mem_of_mem_alongside {locator : Option Locator} {part : Filter}
    (h : part ∈ alongside locator parts) : part ∈ parts := by
  obtain ⟨⟨other, place⟩, hother, rfl⟩ := List.mem_map.mp h
  exact List.fst_mem_of_mem_zipIdx (List.mem_filter.mp hother).1

/-- Whatever locates the rows and in whatever order the parts are asked, clear parts have
answers. The induction is on the disjunctions that may still locate rows. -/
theorem exists_searchAll (disjunctions : Nat) :
    ∀ {wanted : Bool} {parts : List Filter}, (∀ part ∈ parts, IsClear longest row part) →
      ∃ answer, searchAll longest row disjunctions wanted parts = .ok answer := by
  induction disjunctions with
  | zero =>
    intro wanted parts h
    rw [searchAll]
    exact exists_meetsAll (eachLeafOf_iff.mpr h)
  | succ disjunctions ih =>
    intro wanted parts h
    rw [searchAll]
    refine exists_inTurn fun answer hanswer => ?_
    obtain ⟨⟨part, isLocator⟩, hmem, rfl⟩ := List.mem_map.mp hanswer
    have hpart := h part (mem_of_mem_inStages hmem)
    dsimp only
    split
    · next disjuncts =>
      refine exists_together fun answer hanswer => ?_
      obtain ⟨disjunct, hdisjunct, rfl⟩ := List.mem_map.mp hanswer
      -- each disjunct is searched for together with what stands alongside
      refine ih (List.forall_mem_append.mpr ⟨?_, fun part hpart => ?_⟩)
      · exact eachLeaf_conjuncts (eachLeafOf_iff.mp hpart disjunct hdisjunct)
      · exact h part (mem_of_mem_alongside hpart)
    · exact exists_meets hpart

/-- **A search with a clear filter has no fault.** -/
theorem exists_search (h : IsClear longest row filter) :
    ∃ answer, search longest row filter = .ok answer :=
  exists_searchAll _ (eachLeaf_conjuncts h)

/-! ### What is known of all rows -/

mutual

theorem isClear_knowing {column : String} {value : Stored} : ∀ {filter : Filter},
    IsClear longest row filter → IsClear longest row (knowing column value filter)
  | all parts, h | any parts, h => by
    rw [knowing]
    exact isClear_knowingEach (show EachLeafOf _ parts from h)
  | not part, h => by
    rw [knowing]
    exact isClear_knowing (show IsClear longest row part from h)
  | present _, h | absent _, h | equals .., h | among .., h => by
    rw [knowing]
    split
    · exact isAnswered_settled _
    · exact h
  | constant _, h | settled _, h | refused .., h | relatedExists .., h | grantExists .., h
  | memberPresent _, h | memberIsText _, h | memberAmong .., h | memberLike .., h => h

theorem isClear_knowingEach {column : String} {value : Stored} : ∀ {parts : List Filter},
    EachLeafOf (IsAnswered longest row) parts →
      EachLeafOf (IsAnswered longest row) (knowingEach column value parts)
  | [], _ => trivial
  | _ :: _, h => ⟨isClear_knowing h.1, isClear_knowingEach h.2⟩

end

theorem isClear_withKnownFrom {place : Nat} (h : ∀ part ∈ parts, IsClear longest row part) :
    ∀ part ∈ withKnownFrom parts place, IsClear longest row part := by
  rw [withKnownFrom]
  split
  · exact h
  · split
    · exact h
    · intro part hpart
      obtain ⟨⟨other, number⟩, hother, rfl⟩ := List.mem_map.mp hpart
      have hclear := h other (List.fst_mem_of_mem_zipIdx hother)
      dsimp only
      split
      · exact hclear
      · exact isClear_knowing hclear

/-- What is known of columns keeps a filter clear. -/
theorem isClear_withKnown (h : IsClear longest row filter) :
    IsClear longest row filter.withKnown := by
  cases filter with
  | all parts =>
    have hfold : ∀ (places : List Nat) {parts : List Filter},
        (∀ part ∈ parts, IsClear longest row part) →
          ∀ part ∈ places.foldl withKnownFrom parts, IsClear longest row part := by
      intro places
      induction places with
      | nil => exact fun h => h
      | cons place rest ih => exact fun h => ih (isClear_withKnownFrom h)
    exact eachLeafOf_iff.mpr (hfold _ (eachLeafOf_iff.mp h))
  | _ => exact h

theorem faultOn?_of_isClear (h : IsClear longest row filter) :
    filter.faultOn? longest row = none := by
  obtain ⟨answer, hanswer⟩ := exists_search h
  rw [faultOn?, hanswer]

end Filter

/-- **An engine that plans** carries out every search with a filter that keeps to its bounds and
is clear of faults on the rows. -/
theorem Engine.carriesOut_planning {bounds : Bounds} {filter : Filter} {rows : List Entity}
    (hbounds : bounds.isExceededBy filter = false)
    (h : ∀ row ∈ rows, Filter.IsClear bounds.pattern row filter) :
    (planning bounds).CarriesOut filter rows where
  accepted := by simp [planning, hbounds]
  completed row hrow := Filter.faultOn?_of_isClear (Filter.isClear_withKnown (h row hrow))

end Clearance
