import Clearance.Store.Basic
import Mathlib.Data.List.Pairwise

/-!
# Keys

Every stored row has a key. The kinds that carry role lists share one table of keys, and
every other kind has its own, so an identifier names at most one row among the objects of
one kind, and at most one among all that carry role lists. This is what
`Clearance.Store.IsKeyed` says of a store. In such a store an object is found by its kind
and identifier (`Clearance.Store.IsKeyed.find?_eq_some_iff`), and what is read comes in
strictly ascending order (`Clearance.Store.IsKeyed.pairwise_ofKind`), so that nothing comes
twice.
-/

namespace Clearance

/-- Every object has its identifier in the attribute `id`. -/
theorem Entity.cell_id (entity : Entity) : entity.cell "id" = Cell.ofId entity.id := by
  cases entity <;> rfl

/-- Whether two objects have their **keys in one table**. -/
def Entity.SharesKeys (a b : Entity) : Prop :=
  a.kind = b.kind ∨ (a.listed?.isSome = true ∧ b.listed?.isSome = true)

theorem Entity.SharesKeys.symm {a b : Entity} (h : a.SharesKeys b) : b.SharesKeys a :=
  h.imp Eq.symm And.symm

/-- An object that **precedes** another in the order of identifiers. -/
def Entity.Precedes (a b : Entity) : Prop :=
  ∃ u v : Uuid, a.id = some u ∧ b.id = some v ∧ u.number < v.number

theorem Entity.Precedes.trans {a b c : Entity} (hab : a.Precedes b) (hbc : b.Precedes c) :
    a.Precedes c := by
  obtain ⟨u, v, hu, hv, huv⟩ := hab
  obtain ⟨v', w, hv', hw, hvw⟩ := hbc
  obtain rfl : v = v' := Option.some.inj (hv.symm.trans hv')
  exact ⟨u, w, hu, hw, Nat.lt_trans huv hvw⟩

/-- Their identifiers differ. -/
theorem Entity.Precedes.id_ne {a b : Entity} (h : a.Precedes b) : a.id ≠ b.id := by
  obtain ⟨u, v, hu, hv, huv⟩ := h
  rw [hu, hv]
  rintro ⟨⟩
  exact Nat.lt_irrefl _ huv

namespace Store

/-! ### Order -/

theorem before_or_before (a b : Entity) : before a b = true ∨ before b a = true := by
  rw [before, before]
  rcases a.id with _ | u
  · exact .inl rfl
  rcases b.id with _ | v
  · exact .inr rfl
  · simpa using Nat.le_total u.number v.number

theorem before_iff {a b : Entity} :
    before a b = true ↔ ∀ u, a.id = some u → ∃ v, b.id = some v ∧ u.number ≤ v.number := by
  rw [before]
  rcases a.id with _ | u <;> rcases b.id with _ | v <;> simp

theorem before_trans {a b c : Entity} (hab : before a b = true) (hbc : before b c = true) :
    before a c = true := by
  rw [before_iff] at hab hbc ⊢
  intro u hu
  obtain ⟨v, hv, huv⟩ := hab u hu
  obtain ⟨w, hw, hvw⟩ := hbc v hv
  exact ⟨w, hw, Nat.le_trans huv hvw⟩

theorem perm_insertOrdered (a : Entity) (entities : List Entity) :
    (insertOrdered a entities).Perm (a :: entities) := by
  induction entities with
  | nil => exact .refl _
  | cons b rest ih =>
    rw [insertOrdered]
    split
    · exact .refl _
    · exact (ih.cons b).trans (.swap a b rest)

/-- Ordering keeps every object as often as it is there. -/
theorem perm_ordered (entities : List Entity) : (ordered entities).Perm entities := by
  induction entities with
  | nil => exact .nil
  | cons a rest ih => exact (perm_insertOrdered a (ordered rest)).trans (ih.cons a)

/-- **Ordered objects** come before those that follow, also where some have no identifier or
the same. -/
theorem pairwise_before_ordered (entities : List Entity) :
    (ordered entities).Pairwise fun a b => before a b = true := by
  have hinsert : ∀ (a : Entity) (entities : List Entity),
      entities.Pairwise (fun a b => before a b = true) →
        (insertOrdered a entities).Pairwise fun a b => before a b = true := by
    intro a entities h
    induction entities with
    | nil => exact List.pairwise_singleton _ _
    | cons b rest ih =>
      obtain ⟨hfirst, hrest⟩ := List.pairwise_cons.mp h
      rw [insertOrdered]
      split
      · next hab =>
        refine List.pairwise_cons.mpr ⟨?_, h⟩
        exact List.forall_mem_cons.mpr ⟨hab, fun c hc => before_trans hab (hfirst c hc)⟩
      · next hab =>
        have hba := (before_or_before a b).resolve_left hab
        refine List.pairwise_cons.mpr ⟨fun c hc => ?_, ih hrest⟩
        rcases mem_insertOrdered.mp hc with rfl | hc
        · exact hba
        · exact hfirst c hc
  induction entities with
  | nil => exact .nil
  | cons a rest ih => exact hinsert a _ ih

/-- Of two objects with different identifiers one precedes the other. -/
theorem precedes_of_before {a b : Entity} (ha : ∃ id, a.id = some id) (hb : ∃ id, b.id = some id)
    (hne : a.id ≠ b.id) : if before a b then a.Precedes b else b.Precedes a := by
  obtain ⟨u, hu⟩ := ha
  obtain ⟨v, hv⟩ := hb
  have hnumber : u.number ≠ v.number := by
    intro h
    rw [hu, hv, Uuid.ext_number h] at hne
    exact hne rfl
  split
  · next h =>
    have hle : u.number ≤ v.number := by simpa [before, hu, hv] using h
    exact ⟨u, v, hu, hv, by omega⟩
  · next h =>
    have hlt : v.number < u.number := by simpa [before, hu, hv] using h
    exact ⟨v, u, hv, hu, hlt⟩

theorem pairwise_insertOrdered {a : Entity} {entities : List Entity} (ha : ∃ id, a.id = some id)
    (hids : ∀ b ∈ entities, (∃ id, b.id = some id) ∧ a.id ≠ b.id)
    (h : entities.Pairwise Entity.Precedes) :
    (insertOrdered a entities).Pairwise Entity.Precedes := by
  induction entities with
  | nil => exact List.pairwise_singleton _ _
  | cons b rest ih =>
    obtain ⟨⟨hb, hne⟩, hrest⟩ := List.forall_mem_cons.mp hids
    obtain ⟨hbefore, hpairs⟩ := List.pairwise_cons.mp h
    have hab := precedes_of_before ha hb hne
    -- the object goes before the first that it precedes
    rw [insertOrdered]
    split
    · next hcase =>
      rw [if_pos hcase] at hab
      refine List.pairwise_cons.mpr ⟨fun c hc => ?_, h⟩
      rcases List.mem_cons.mp hc with rfl | hc
      · exact hab
      · exact hab.trans (hbefore c hc)
    · next hcase =>
      rw [if_neg hcase] at hab
      refine List.pairwise_cons.mpr ⟨fun c hc => ?_, ih hrest hpairs⟩
      rcases mem_insertOrdered.mp hc with rfl | hc
      · exact hab
      · exact hbefore c hc

/-- Objects with different identifiers come in **strictly ascending order**. -/
theorem pairwise_ordered {entities : List Entity}
    (hids : ∀ entity ∈ entities, ∃ id, entity.id = some id)
    (h : entities.Pairwise fun a b => a.id ≠ b.id) :
    (ordered entities).Pairwise Entity.Precedes := by
  induction entities with
  | nil => exact List.Pairwise.nil
  | cons a rest ih =>
    obtain ⟨ha, hrest⟩ := List.forall_mem_cons.mp hids
    obtain ⟨hne, hpairs⟩ := List.pairwise_cons.mp h
    refine pairwise_insertOrdered ha (fun b hb => ?_) (ih hrest hpairs)
    have hmem := mem_ordered.mp hb
    exact ⟨hrest b hmem, hne b hmem⟩

/-! ### Keys -/

/-- A store in which every object has a **key** of its own. -/
structure IsKeyed (store : Store) : Prop where
  /-- Every object has an identifier. -/
  identified : ∀ entity ∈ store.entities, ∃ id, entity.id = some id
  /-- No two objects with keys in one table have the same. -/
  distinct : store.entities.Pairwise fun a b => a.SharesKeys b → a.id ≠ b.id

variable {store : Store} {kind : Kind} {test : Entity → Bool} {entity : Entity}

/-! ### Membership -/

theorem mem_ofKind : entity ∈ store.ofKind kind ↔ entity ∈ store.entities ∧ entity.kind = kind := by
  simp [ofKind]

theorem mem_ofKindWhere :
    entity ∈ store.ofKindWhere kind test ↔
      entity ∈ store.entities ∧ entity.kind = kind ∧ test entity = true := by
  simp [ofKindWhere]

namespace IsKeyed

/-! ### Lookups -/

/-- An object is told by its key. -/
theorem eq_of_id_eq (h : store.IsKeyed) {a b : Entity} (ha : a ∈ store.entities)
    (hb : b ∈ store.entities) (hshare : a.SharesKeys b) (hid : a.id = b.id) : a = b := by
  by_contra hne
  have : Std.Symm fun a b : Entity => a.SharesKeys b → a.id ≠ b.id :=
    ⟨fun a b hab hba => (hab hba.symm).symm⟩
  exact h.distinct.forall ha hb hne hshare hid

/-- **An object is found** by its kind and its identifier. -/
theorem find?_eq_some_iff (h : store.IsKeyed) {id : Uuid} :
    store.find? kind id = some entity ↔
      entity ∈ store.entities ∧ entity.kind = kind ∧ entity.id = some id := by
  constructor
  · intro hfind
    have htest := List.find?_some hfind
    have hmem := List.mem_of_find?_eq_some hfind
    exact ⟨hmem, by simpa using htest⟩
  · rintro ⟨hmem, rfl, hid⟩
    rcases hfind : store.find? entity.kind id with _ | found
    · have hnone := List.find?_eq_none.mp hfind entity hmem
      simp [hid] at hnone
    · have htest := List.find?_some hfind
      obtain ⟨hkind, hfound⟩ : found.kind = entity.kind ∧ found.id = some id := by
        simpa using htest
      have hstored := List.mem_of_find?_eq_some hfind
      rw [h.eq_of_id_eq hstored hmem (.inl hkind) (hfound.trans hid.symm)]

/-- What is chosen among the objects of a kind comes in strictly ascending order, -/
theorem pairwise_ordered_filter (h : store.IsKeyed)
    (hkind : ∀ entity, test entity = true → entity.kind = kind) :
    (ordered (store.entities.filter test)).Pairwise Entity.Precedes := by
  refine pairwise_ordered (fun entity hentity => ?_) ?_
  · exact h.identified entity (List.mem_filter.mp hentity).1
  · refine (h.distinct.filter _).imp_of_mem fun {a b} ha hb hab => hab (.inl ?_)
    have ha := hkind a (List.mem_filter.mp ha).2
    have hb := hkind b (List.mem_filter.mp hb).2
    exact ha.trans hb.symm

/-- so that no object of the kind comes twice, -/
theorem pairwise_ofKind (h : store.IsKeyed) (kind : Kind) :
    (store.ofKind kind).Pairwise Entity.Precedes :=
  h.pairwise_ordered_filter fun _ => beq_iff_eq.mp

/-- nor any of those that pass a test. -/
theorem pairwise_ofKindWhere (h : store.IsKeyed) (kind : Kind) (test : Entity → Bool) :
    (store.ofKindWhere kind test).Pairwise Entity.Precedes :=
  h.pairwise_ordered_filter fun _ hpasses => beq_iff_eq.mp (Bool.and_eq_true_iff.mp hpasses).1

/-- Nothing is found where no object has the kind and the identifier. -/
theorem find?_eq_none_iff {id : Uuid} :
    store.find? kind id = none ↔
      ∀ entity ∈ store.entities, entity.kind = kind → entity.id ≠ some id := by
  rw [find?, rowIn?, List.find?_eq_none]
  simp

end IsKeyed

end Store

end Clearance
