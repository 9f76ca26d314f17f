/-!
# Outcomes

Everything in this library that can fail does so in `Except`. This file says how an
outcome of a composed computation comes apart into the outcomes of its parts, so that
the later files never unfold a bind: the result of a bind (`Clearance.Outcome.bind_eq_ok`),
of a mapped result or error, and of a computation done for each item of a list.
-/

namespace Clearance.Outcome

variable {ε ε' α β : Type}

/-! ### One step after the other -/

theorem bind_eq_ok {x : Except ε α} {f : α → Except ε β} {b : β} :
    (x >>= f) = .ok b ↔ ∃ a, x = .ok a ∧ f a = .ok b := by
  cases x <;> simp [bind, Except.bind]

theorem bind_eq_error {x : Except ε α} {f : α → Except ε β} {e : ε} :
    (x >>= f) = .error e ↔ x = .error e ∨ ∃ a, x = .ok a ∧ f a = .error e := by
  cases x <;> simp [bind, Except.bind]

theorem map_eq_ok {x : Except ε α} {f : α → β} {b : β} :
    x.map f = .ok b ↔ ∃ a, x = .ok a ∧ f a = b := by
  cases x <;> simp [Except.map]

theorem map_eq_error {x : Except ε α} {f : α → β} {e : ε} :
    x.map f = .error e ↔ x = .error e := by
  cases x <;> simp [Except.map]

@[simp] theorem mapError_ok (f : ε → ε') (a : α) :
    (Except.ok a : Except ε α).mapError f = .ok a :=
  rfl

@[simp] theorem mapError_error (f : ε → ε') (e : ε) :
    (Except.error e : Except ε α).mapError f = .error (f e) :=
  rfl

theorem mapError_eq_ok {x : Except ε α} {f : ε → ε'} {a : α} :
    x.mapError f = .ok a ↔ x = .ok a := by
  cases x <;> simp

theorem mapError_eq_error {x : Except ε α} {f : ε → ε'} {e : ε'} :
    x.mapError f = .error e ↔ ∃ e', x = .error e' ∧ f e' = e := by
  cases x <;> simp

theorem toOption_eq_some_iff {x : Except ε α} {a : α} : x.toOption = some a ↔ x = .ok a := by
  cases x <;> simp [Except.toOption]

/-! ### One item after the other -/

variable {items kept : List α} {test : α → Except ε Bool}

/-- What a test that has been made of every item of a list keeps of it, in front of what
has been kept before. -/
theorem filterAuxM_eq_ok {before : List α} :
    items.filterAuxM test before = .ok kept →
      (∀ item ∈ items, ∃ answer, test item = .ok answer) ∧
        ∀ item, item ∈ kept ↔ (item ∈ items ∧ test item = .ok true) ∨ item ∈ before := by
  induction items generalizing before with
  | nil =>
    intro h
    obtain rfl : before = kept := Except.ok.inj h
    simp
  | cons first rest ih =>
    intro h
    obtain ⟨answer, hanswer, h⟩ := bind_eq_ok.mp h
    obtain ⟨hrest, hkept⟩ := ih h
    refine ⟨List.forall_mem_cons.mpr ⟨⟨answer, hanswer⟩, hrest⟩, fun item => ?_⟩
    rw [hkept, List.mem_cons]
    -- the first item comes to the front exactly when the test says yes
    cases answer <;> by_cases hitem : item = first <;> simp_all

/-- A list that has been **filtered** has the items that pass the test, which has had an
answer for every item. -/
theorem filterM_eq_ok (h : items.filterM test = .ok kept) :
    (∀ item ∈ items, ∃ answer, test item = .ok answer) ∧
      ∀ item, item ∈ kept ↔ item ∈ items ∧ test item = .ok true := by
  obtain ⟨found, hfound, h⟩ := bind_eq_ok.mp h
  obtain rfl : found.reverse = kept := Except.ok.inj h
  simpa using filterAuxM_eq_ok hfound

theorem filterM_eq_error {e : ε} (h : items.filterM test = .error e) :
    ∃ item ∈ items, test item = .error e := by
  have haux : ∀ (items before : List α), items.filterAuxM test before = .error e →
      ∃ item ∈ items, test item = .error e := by
    intro items
    induction items with
    | nil =>
      intro before h
      simp [pure, Except.pure] at h
    | cons first rest ih =>
      intro before h
      rcases bind_eq_error.mp h with h | ⟨answer, -, h⟩
      · exact ⟨first, List.mem_cons_self, h⟩
      · obtain ⟨item, hitem, h⟩ := ih _ h
        exact ⟨item, List.mem_cons_of_mem _ hitem, h⟩
  rcases bind_eq_error.mp h with h | ⟨found, -, h⟩
  · exact haux _ _ h
  · simp [pure, Except.pure] at h

/-- If the test has an answer for every item, the list can be filtered. -/
theorem exists_filterM (h : ∀ item ∈ items, ∃ answer, test item = .ok answer) :
    ∃ kept, items.filterM test = .ok kept := by
  rcases hkept : items.filterM test with e | kept
  · obtain ⟨item, hitem, herror⟩ := filterM_eq_error hkept
    obtain ⟨answer, hanswer⟩ := h item hitem
    rw [herror] at hanswer
    cases hanswer
  · exact ⟨kept, rfl⟩

/-- A search finds an item that passes the test, -/
theorem anyM_eq_true (h : items.anyM test = .ok true) : ∃ item ∈ items, test item = .ok true := by
  induction items with
  | nil => simp [pure, Except.pure] at h
  | cons first rest ih =>
    obtain ⟨answer, hanswer, h⟩ := bind_eq_ok.mp h
    cases answer with
    | true => exact ⟨first, List.mem_cons_self, hanswer⟩
    | false =>
      obtain ⟨item, hitem, h⟩ := ih h
      exact ⟨item, List.mem_cons_of_mem _ hitem, h⟩

/-- or none passes it, -/
theorem anyM_eq_false (h : items.anyM test = .ok false) :
    ∀ item ∈ items, test item = .ok false := by
  induction items with
  | nil => simp
  | cons first rest ih =>
    obtain ⟨answer, hanswer, h⟩ := bind_eq_ok.mp h
    cases answer with
    | true => simp [pure, Except.pure] at h
    | false => exact List.forall_mem_cons.mpr ⟨hanswer, ih h⟩

/-- or the test of some item has an error. -/
theorem anyM_eq_error {e : ε} (h : items.anyM test = .error e) :
    ∃ item ∈ items, test item = .error e := by
  induction items with
  | nil => simp [pure, Except.pure] at h
  | cons first rest ih =>
    rcases bind_eq_error.mp h with h | ⟨answer, -, h⟩
    · exact ⟨first, List.mem_cons_self, h⟩
    · cases answer with
      | true => simp [pure, Except.pure] at h
      | false =>
        obtain ⟨item, hitem, h⟩ := ih h
        exact ⟨item, List.mem_cons_of_mem _ hitem, h⟩

/-- A search depends on what the test says about the items. -/
theorem anyM_congr {other : α → Except ε Bool} (h : ∀ item ∈ items, test item = other item) :
    items.anyM test = items.anyM other := by
  induction items with
  | nil => rfl
  | cons first rest ih =>
    obtain ⟨hfirst, hrest⟩ := List.forall_mem_cons.mp h
    rw [List.anyM, List.anyM, hfirst, ih hrest]

variable {f : α → Except ε β} {results : List β}

theorem mapM_cons_eq_ok {first : α} {rest : List α} :
    (first :: rest).mapM f = .ok results ↔
      ∃ made others, f first = .ok made ∧ rest.mapM f = .ok others ∧ made :: others = results := by
  rw [List.mapM_cons, bind_eq_ok]
  refine exists_congr fun made => ?_
  rw [bind_eq_ok, ← exists_and_left]
  simp [pure, Except.pure]

/-- What has been made of the items of a list is what each of them gives. -/
theorem mapM_eq_ok (h : items.mapM f = .ok results) :
    (∀ item ∈ items, ∃ result, f item = .ok result) ∧
      ∀ result, result ∈ results ↔ ∃ item ∈ items, f item = .ok result := by
  induction items generalizing results with
  | nil =>
    obtain rfl : [] = results := by simpa [pure, Except.pure] using h
    simp
  | cons first rest ih =>
    obtain ⟨made, others, hmade, hothers, rfl⟩ := mapM_cons_eq_ok.mp h
    obtain ⟨hall, hmem⟩ := ih hothers
    refine ⟨List.forall_mem_cons.mpr ⟨⟨made, hmade⟩, hall⟩, fun result => ?_⟩
    simp [hmem, hmade, eq_comm]

theorem mapM_eq_error {e : ε} (h : items.mapM f = .error e) :
    ∃ item ∈ items, f item = .error e := by
  induction items with
  | nil => simp [pure, Except.pure] at h
  | cons first rest ih =>
    rw [List.mapM_cons] at h
    rcases bind_eq_error.mp h with h | ⟨result, -, h⟩
    · exact ⟨first, List.mem_cons_self, h⟩
    · rcases bind_eq_error.mp h with h | ⟨others, -, h⟩
      · obtain ⟨item, hitem, h⟩ := ih h
        exact ⟨item, List.mem_cons_of_mem _ hitem, h⟩
      · simp [pure, Except.pure] at h

/-- If each item gives something, so does the list. -/
theorem exists_mapM (h : ∀ item ∈ items, ∃ result, f item = .ok result) :
    ∃ results, items.mapM f = .ok results := by
  rcases hmade : items.mapM f with e | results
  · obtain ⟨item, hitem, herror⟩ := mapM_eq_error hmade
    obtain ⟨result, hresult⟩ := h item hitem
    rw [herror] at hresult
    cases hresult
  · exact ⟨results, rfl⟩

/-- What every step of a fold keeps, the fold keeps. -/
theorem foldlM_preserves {step : β → α → Except ε β} {P : β → Prop} {start last : β}
    (hstep : ∀ state next, ∀ item ∈ items, P state → step state item = .ok next → P next)
    (hstart : P start) (h : items.foldlM step start = .ok last) : P last := by
  induction items generalizing start with
  | nil =>
    obtain rfl : start = last := Except.ok.inj h
    exact hstart
  | cons item rest ih =>
    rw [List.foldlM_cons] at h
    obtain ⟨next, hnext, hrest⟩ := bind_eq_ok.mp h
    refine ih (fun state other item hitem => hstep state other item (List.mem_cons_of_mem _ hitem))
      ?_ hrest
    exact hstep start next item List.mem_cons_self hstart hnext

end Clearance.Outcome
