import Clearance.Condition.Filter

/-!
# The leaves of a filter

Filters are joined and negated, and what is constant in them is folded away. A property that
every leaf has, constants among them, is kept by all this (`Clearance.Filter.EachLeaf`). Whether an
operand is refused is such a property: if it is for no leaf, it is for none of what is made of them
(`Clearance.Filter.refusals_eq_nil_iff`).
-/

namespace Clearance.Filter

/-! ### Leaves -/

mutual

/-- Whether every **leaf** of a filter has a property. -/
def EachLeaf (P : Filter → Prop) : Filter → Prop
  | all parts | any parts => EachLeafOf P parts
  | not part => EachLeaf P part
  | leaf => P leaf

/-- Whether every leaf of some filters has a property. -/
def EachLeafOf (P : Filter → Prop) : List Filter → Prop
  | [] => True
  | part :: rest => EachLeaf P part ∧ EachLeafOf P rest

end

variable {P : Filter → Prop} {parts : List Filter} {filter : Filter}

theorem eachLeafOf_iff : EachLeafOf P parts ↔ ∀ part ∈ parts, EachLeaf P part := by
  induction parts with
  | nil => simp [EachLeafOf]
  | cons part rest ih => rw [EachLeafOf, ih, List.forall_mem_cons]

theorem eachLeaf_conjuncts (h : EachLeaf P filter) :
    ∀ part ∈ filter.conjuncts, EachLeaf P part := by
  cases filter with
  | all parts => exact eachLeafOf_iff.mp h
  | _ => simpa [conjuncts] using h

theorem eachLeaf_disjuncts (h : EachLeaf P filter) :
    ∀ part ∈ filter.disjuncts, EachLeaf P part := by
  cases filter with
  | any parts => exact eachLeafOf_iff.mp h
  | _ => simpa [disjuncts] using h

section Folding

/-! What constants come out as has the property as well. -/

variable (hconstant : ∀ value, P (constant value)) (hsettled : ∀ value, P (settled value))

include hconstant hsettled

theorem eachLeaf_conjunction (h : ∀ part ∈ parts, EachLeaf P part) :
    EachLeaf P (conjunction parts) := by
  have hkept : ∀ part ∈ parts.filter (!isConstant true ·), EachLeaf P part :=
    fun part hpart => h part (List.mem_filter.mp hpart).1
  rw [conjunction]
  split
  · exact hconstant true
  · split
    · exact hsettled false
    · split
      · exact hsettled true
      · next part hpart => exact hkept part (by simp [hpart])
      · refine eachLeafOf_iff.mpr fun part hpart => ?_
        obtain ⟨chain, hchain, hpart⟩ := List.mem_flatMap.mp hpart
        exact eachLeaf_conjuncts (hkept chain hchain) part hpart

theorem eachLeaf_disjunction (h : ∀ part ∈ parts, EachLeaf P part) :
    EachLeaf P (disjunction parts) := by
  have hkept : ∀ part ∈ parts.filter (!isConstant false ·), EachLeaf P part :=
    fun part hpart => h part (List.mem_filter.mp hpart).1
  rw [disjunction]
  split
  · exact hconstant false
  · split
    · exact hsettled true
    · split
      · exact hsettled false
      · next part hpart => exact hkept part (by simp [hpart])
      · refine eachLeafOf_iff.mpr fun part hpart => ?_
        obtain ⟨chain, hchain, hpart⟩ := List.mem_flatMap.mp hpart
        exact eachLeaf_disjuncts (hkept chain hchain) part hpart

omit hsettled in
theorem eachLeaf_negation (h : EachLeaf P filter) : EachLeaf P filter.negation := by
  cases filter with
  | constant value | settled value => exact hconstant _
  | _ => exact h

end Folding

/-! ### Refused operands -/

mutual

/-- **No operand is refused** if none is in a leaf. -/
theorem refusals_eq_nil_iff : ∀ {filter : Filter},
    filter.refusals = [] ↔ EachLeaf (·.refusals = []) filter
  | all parts | any parts => by
    rw [refusals]
    exact refusalsOf_eq_nil_iff
  | not part => by
    rw [refusals]
    exact refusals_eq_nil_iff
  | constant _ | settled _ | present _ | absent _ | equals .. | among .. | refused ..
  | relatedExists .. | grantExists .. | memberPresent _ | memberIsText _ | memberAmong ..
  | memberLike .. => Iff.rfl

theorem refusalsOf_eq_nil_iff : ∀ {parts : List Filter},
    refusalsOf parts = [] ↔ EachLeafOf (·.refusals = []) parts
  | [] => by simp [refusalsOf, EachLeafOf]
  | part :: rest => by
    rw [refusalsOf, List.append_eq_nil_iff, refusals_eq_nil_iff, refusalsOf_eq_nil_iff, EachLeafOf]

end

theorem refusals_all (h : ∀ part ∈ parts, part.refusals = []) : (all parts).refusals = [] :=
  refusals_eq_nil_iff.mpr <| eachLeafOf_iff.mpr fun part hpart =>
    refusals_eq_nil_iff.mp (h part hpart)

theorem refusals_conjunction (h : ∀ part ∈ parts, part.refusals = []) :
    (conjunction parts).refusals = [] :=
  refusals_eq_nil_iff.mpr <| eachLeaf_conjunction (fun _ => rfl) (fun _ => rfl)
    fun part hpart => refusals_eq_nil_iff.mp (h part hpart)

theorem refusals_disjunction (h : ∀ part ∈ parts, part.refusals = []) :
    (disjunction parts).refusals = [] :=
  refusals_eq_nil_iff.mpr <| eachLeaf_disjunction (fun _ => rfl) (fun _ => rfl)
    fun part hpart => refusals_eq_nil_iff.mp (h part hpart)

theorem refusals_negation (h : filter.refusals = []) : filter.negation.refusals = [] :=
  refusals_eq_nil_iff.mpr <| eachLeaf_negation (fun _ => rfl) (refusals_eq_nil_iff.mp h)

end Clearance.Filter
