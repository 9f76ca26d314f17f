import Clearance.Condition.Filter

/-!
# What a filter means

While a filter is written, constants are folded away and chains are joined into longer
ones. None of this changes what the filter means: a conjunction is true, false or unknown
of a row as the three-valued conjunction of its parts is
(`Clearance.Filter.eval_conjunction`), and likewise for disjunctions and negations.

Parts that are *definite*, which means true or false but never unknown, make a definite
whole (`Clearance.Filter.evalAll_map`). So a filter whose leaves are definite keeps
its meaning under every number of negations.
-/

namespace Clearance

/-! ### Three truth values -/

namespace Truth

@[simp] theorem not_some (a : Bool) : not (some a) = some !a := rfl

@[simp] theorem and_some (a b : Bool) : and (some a) (some b) = some (a && b) := by
  cases a <;> cases b <;> rfl

@[simp] theorem or_some (a b : Bool) : or (some a) (some b) = some (a || b) := by
  cases a <;> cases b <;> rfl

@[simp] theorem true_and (a : Truth) : and (some true) a = a := by
  rcases a with _ | _ | _ <;> rfl

@[simp] theorem and_true (a : Truth) : and a (some true) = a := by
  rcases a with _ | _ | _ <;> rfl

@[simp] theorem false_and (a : Truth) : and (some false) a = some false := by
  rcases a with _ | _ | _ <;> rfl

@[simp] theorem and_false (a : Truth) : and a (some false) = some false := by
  rcases a with _ | _ | _ <;> rfl

@[simp] theorem false_or (a : Truth) : or (some false) a = a := by
  rcases a with _ | _ | _ <;> rfl

@[simp] theorem or_false (a : Truth) : or a (some false) = a := by
  rcases a with _ | _ | _ <;> rfl

@[simp] theorem true_or (a : Truth) : or (some true) a = some true := by
  rcases a with _ | _ | _ <;> rfl

@[simp] theorem or_true (a : Truth) : or a (some true) = some true := by
  rcases a with _ | _ | _ <;> rfl

theorem and_eq_true_iff {a b : Truth} : and a b = some true ↔ a = some true ∧ b = some true := by
  rcases a with _ | _ | _ <;> rcases b with _ | _ | _ <;> decide

theorem and_assoc (a b c : Truth) : and (and a b) c = and a (and b c) := by
  rcases a with _ | _ | _ <;> rcases b with _ | _ | _ <;> rcases c with _ | _ | _ <;> rfl

theorem or_assoc (a b c : Truth) : or (or a b) c = or a (or b c) := by
  rcases a with _ | _ | _ <;> rcases b with _ | _ | _ <;> rcases c with _ | _ | _ <;> rfl

end Truth

namespace Filter

variable {entity : Entity} {part : Filter} {parts rest : List Filter}

/-! ### One filter -/

@[simp] theorem eval_constant (value : Bool) : eval entity (constant value) = some value := rfl

@[simp] theorem eval_settled (value : Bool) : eval entity (settled value) = some value := rfl

@[simp] theorem eval_all : eval entity (all parts) = evalAll entity parts := rfl

@[simp] theorem eval_any : eval entity (any parts) = evalAny entity parts := rfl

@[simp] theorem eval_not : eval entity (not part) = (eval entity part).not := rfl

@[simp] theorem evalAll_nil : evalAll entity [] = some true := rfl

@[simp] theorem evalAll_cons :
    evalAll entity (part :: rest) = (eval entity part).and (evalAll entity rest) := rfl

@[simp] theorem evalAny_nil : evalAny entity [] = some false := rfl

@[simp] theorem evalAny_cons :
    evalAny entity (part :: rest) = (eval entity part).or (evalAny entity rest) := rfl

/-! ### Chains -/

theorem evalAll_append (parts more : List Filter) :
    evalAll entity (parts ++ more) = (evalAll entity parts).and (evalAll entity more) := by
  induction parts with
  | nil => simp
  | cons part rest ih => rw [List.cons_append, evalAll_cons, evalAll_cons, ih, Truth.and_assoc]

theorem evalAny_append (parts more : List Filter) :
    evalAny entity (parts ++ more) = (evalAny entity parts).or (evalAny entity more) := by
  induction parts with
  | nil => simp
  | cons part rest ih => rw [List.cons_append, evalAny_cons, evalAny_cons, ih, Truth.or_assoc]

theorem evalAll_conjuncts (part : Filter) : evalAll entity part.conjuncts = eval entity part := by
  cases part <;> simp [conjuncts]

theorem evalAny_disjuncts (part : Filter) : evalAny entity part.disjuncts = eval entity part := by
  cases part <;> simp [disjuncts]

/-- Joining the chains among the parts of a conjunction changes nothing, -/
theorem evalAll_flatMap_conjuncts (parts : List Filter) :
    evalAll entity (parts.flatMap conjuncts) = evalAll entity parts := by
  induction parts with
  | nil => rfl
  | cons part rest ih =>
    rw [List.flatMap_cons, evalAll_append, evalAll_conjuncts, ih, evalAll_cons]

/-- nor does it among the parts of a disjunction. -/
theorem evalAny_flatMap_disjuncts (parts : List Filter) :
    evalAny entity (parts.flatMap disjuncts) = evalAny entity parts := by
  induction parts with
  | nil => rfl
  | cons part rest ih =>
    rw [List.flatMap_cons, evalAny_append, evalAny_disjuncts, ih, evalAny_cons]

/-! ### Folding constants -/

theorem eq_constant_of_isConstant {value : Bool} {part : Filter}
    (h : part.isConstant value = true) : part = constant value := by
  cases part <;> simp_all [isConstant]

/-- One false part makes a conjunction false, whatever is unknown. -/
theorem evalAll_eq_false (h : parts.any (isConstant false) = true) :
    evalAll entity parts = some false := by
  induction parts with
  | nil => simp at h
  | cons part rest ih =>
    rw [List.any_cons, Bool.or_eq_true] at h
    rw [evalAll_cons]
    rcases h with h | h
    · rw [eq_constant_of_isConstant h, eval_constant, Truth.false_and]
    · rw [ih h, Truth.and_false]

/-- One true part makes a disjunction true, whatever is unknown. -/
theorem evalAny_eq_true (h : parts.any (isConstant true) = true) :
    evalAny entity parts = some true := by
  induction parts with
  | nil => simp at h
  | cons part rest ih =>
    rw [List.any_cons, Bool.or_eq_true] at h
    rw [evalAny_cons]
    rcases h with h | h
    · rw [eq_constant_of_isConstant h, eval_constant, Truth.true_or]
    · rw [ih h, Truth.or_true]

theorem evalAll_filter (parts : List Filter) :
    evalAll entity (parts.filter (!isConstant true ·)) = evalAll entity parts := by
  induction parts with
  | nil => rfl
  | cons part rest ih =>
    by_cases h : part.isConstant true = true
    · rw [List.filter_cons_of_neg (by simp [h]), ih, evalAll_cons,
        eq_constant_of_isConstant h, eval_constant, Truth.true_and]
    · rw [List.filter_cons_of_pos (by simp [h]), evalAll_cons, evalAll_cons, ih]

theorem evalAny_filter (parts : List Filter) :
    evalAny entity (parts.filter (!isConstant false ·)) = evalAny entity parts := by
  induction parts with
  | nil => rfl
  | cons part rest ih =>
    by_cases h : part.isConstant false = true
    · rw [List.filter_cons_of_neg (by simp [h]), ih, evalAny_cons,
        eq_constant_of_isConstant h, eval_constant, Truth.false_or]
    · rw [List.filter_cons_of_pos (by simp [h]), evalAny_cons, evalAny_cons, ih]

/-- **A conjunction** means the three-valued conjunction of its parts. -/
@[simp] theorem eval_conjunction (parts : List Filter) :
    eval entity (conjunction parts) = evalAll entity parts := by
  rw [conjunction]
  split
  · next h => rw [List.isEmpty_iff.mp h, eval_constant, evalAll_nil]
  · split
    · next h => rw [eval_settled, evalAll_eq_false h]
    · rw [← evalAll_filter parts]
      split
      · next h => rw [h, eval_settled, evalAll_nil]
      · next part h => rw [h, evalAll_cons, evalAll_nil, Truth.and_true]
      · rw [eval_all, evalAll_flatMap_conjuncts]

/-- **A disjunction** means the three-valued disjunction of its parts. -/
@[simp] theorem eval_disjunction (parts : List Filter) :
    eval entity (disjunction parts) = evalAny entity parts := by
  rw [disjunction]
  split
  · next h => rw [List.isEmpty_iff.mp h, eval_constant, evalAny_nil]
  · split
    · next h => rw [eval_settled, evalAny_eq_true h]
    · rw [← evalAny_filter parts]
      split
      · next h => rw [h, eval_settled, evalAny_nil]
      · next part h => rw [h, evalAny_cons, evalAny_nil, Truth.or_false]
      · rw [eval_any, evalAny_flatMap_disjuncts]

/-- **A negation** means the three-valued negation of its part. -/
@[simp] theorem eval_negation (part : Filter) :
    eval entity (negation part) = (eval entity part).not := by
  cases part <;> simp [negation]

/-! ### Definite parts -/

variable {α : Type} {items : List α} {write : α → Filter} {value : α → Bool}

theorem evalAll_map (h : ∀ item ∈ items, eval entity (write item) = some (value item)) :
    evalAll entity (items.map write) = some (items.all value) := by
  induction items with
  | nil => rfl
  | cons item rest ih =>
    obtain ⟨hitem, hrest⟩ := List.forall_mem_cons.mp h
    rw [List.map_cons, evalAll_cons, hitem, ih hrest, Truth.and_some, List.all_cons]

theorem evalAny_map (h : ∀ item ∈ items, eval entity (write item) = some (value item)) :
    evalAny entity (items.map write) = some (items.any value) := by
  induction items with
  | nil => rfl
  | cons item rest ih =>
    obtain ⟨hitem, hrest⟩ := List.forall_mem_cons.mp h
    rw [List.map_cons, evalAny_cons, hitem, ih hrest, Truth.or_some, List.any_cons]

end Filter

end Clearance
