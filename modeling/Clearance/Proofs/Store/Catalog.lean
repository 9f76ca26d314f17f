import Clearance.Store.Catalog
import Mathlib.Data.List.Basic
import Mathlib.Data.String.Basic

/-!
# What the stored catalog holds

A flag may be mentioned by many roles and belong to the vocabulary on top of that, but the catalog
has one row for it. Two things have to be told of the rows, and `Clearance.Store.catalog_exact`
tells both: they are in order, and of the rows that a flag could have the one that was there first
is kept, so that completing the catalog changes no label.

Rows are put in one after the other. One step keeps the order
(`Clearance.Store.pairwise_addRow`), and adds its row just when there is none of the flag
(`Clearance.Store.mem_addRow`); a run of such steps keeps the first row of every flag
(`Clearance.Store.mem_foldl_addRow`).
-/

namespace Clearance.Store

variable {row other third : CatalogRow} {rows given : List CatalogRow}

/-! ### The order of rows -/

namespace CatalogRow

/-- Rows **of the same flag**: it has the same key and belongs to the same scope. -/
def SharesFlag (row other : CatalogRow) : Prop :=
  row.key = other.key ∧ row.isGlobal = other.isGlobal

instance : Decidable (row.SharesFlag other) :=
  inferInstanceAs (Decidable (_ ∧ _))

theorem before_iff : row.before other = true ↔ row.key < other.key ∨
    row.key = other.key ∧ row.isGlobal = false ∧ other.isGlobal = true := by
  simp [before]

theorem before_trans (h : row.before other = true) (h' : other.before third = true) :
    row.before third = true := by
  rw [before_iff] at h h' ⊢
  rcases h with h | ⟨hkey, hrow, hother⟩
  · rcases h' with h' | ⟨hkey', -, -⟩
    · exact .inl (h.trans h')
    · exact .inl (hkey' ▸ h)
  · rcases h' with h' | ⟨-, hother', -⟩
    · exact .inl (hkey ▸ h')
    · cases hother.symm.trans hother'

/-- A row comes neither before nor after the rows of its own flag, and no others. -/
theorem sharesFlag_iff :
    row.SharesFlag other ↔ row.before other = false ∧ other.before row = false := by
  rw [← Bool.not_eq_true, ← Bool.not_eq_true, before_iff, before_iff, SharesFlag]
  rcases lt_trichotomy row.key other.key with hlt | heq | hlt
  · simp [hlt, hlt.ne]
  · cases hrow : row.isGlobal <;> cases hother : other.isGlobal <;> simp [heq]
  · simp [hlt, hlt.ne']

theorem SharesFlag.symm (h : row.SharesFlag other) : other.SharesFlag row :=
  ⟨h.1.symm, h.2.symm⟩

theorem SharesFlag.trans (h : row.SharesFlag other) (h' : other.SharesFlag third) :
    row.SharesFlag third :=
  ⟨h.1.trans h'.1, h.2.trans h'.2⟩

theorem not_sharesFlag_of_before (h : row.before other = true) : ¬ row.SharesFlag other :=
  fun hshares => Bool.noConfusion (h.symm.trans (sharesFlag_iff.mp hshares).1)

end CatalogRow

open CatalogRow

/-! ### One row -/

theorem mem_of_mem_addRow (h : other ∈ addRow row rows) : other = row ∨ other ∈ rows := by
  induction rows with
  | nil => exact .inl (List.mem_singleton.mp h)
  | cons first rest ih =>
    rw [addRow] at h
    split at h
    · rcases List.mem_cons.mp h with rfl | h
      · exact .inr List.mem_cons_self
      · exact (ih h).imp_right (List.mem_cons_of_mem _)
    split at h
    · exact List.mem_cons.mp h
    · exact .inr h

/-- **One more row** keeps the order. -/
theorem pairwise_addRow (h : rows.Pairwise (·.before ·)) :
    (addRow row rows).Pairwise (·.before ·) := by
  induction rows with
  | nil => exact List.pairwise_singleton ..
  | cons first rest ih =>
    obtain ⟨hfirst, hrest⟩ := List.pairwise_cons.mp h
    rw [addRow]
    split
    · next hbefore =>
      refine List.pairwise_cons.mpr ⟨fun other hother => ?_, ih hrest⟩
      rcases mem_of_mem_addRow hother with rfl | hother
      · exact hbefore
      · exact hfirst other hother
    split
    · next hbefore =>
      refine List.pairwise_cons.mpr ⟨List.forall_mem_cons.mpr ⟨hbefore, fun other hother => ?_⟩, h⟩
      exact CatalogRow.before_trans hbefore (hfirst other hother)
    · exact h

/-- It is added just when there is none of its flag. -/
theorem mem_addRow (h : rows.Pairwise (·.before ·)) : other ∈ addRow row rows ↔
    other ∈ rows ∨ other = row ∧ ∀ there ∈ rows, ¬ there.SharesFlag row := by
  induction rows with
  | nil => simp [addRow]
  | cons first rest ih =>
    obtain ⟨hfirst, hrest⟩ := List.pairwise_cons.mp h
    rw [addRow]
    split
    · next hbefore =>
      rw [List.mem_cons, ih hrest, List.mem_cons, List.forall_mem_cons, or_assoc]
      simp [not_sharesFlag_of_before hbefore]
    split
    · next hbefore =>
      -- the row comes before all that are there
      have hnone : ∀ there ∈ first :: rest, ¬ there.SharesFlag row := by
        intro there hthere hshares
        have hbeforeThere : row.before there = true := by
          rcases List.mem_cons.mp hthere with rfl | hthere
          · exact hbefore
          · exact CatalogRow.before_trans hbefore (hfirst there hthere)
        exact not_sharesFlag_of_before hbeforeThere hshares.symm
      rw [List.mem_cons, or_comm, and_iff_left hnone]
    · next hafter hbefore =>
      have hshares : first.SharesFlag row :=
        sharesFlag_iff.mpr ⟨by simpa using hafter, by simpa using hbefore⟩
      simp [hshares]

/-- Either way there is one of its flag from then on. -/
theorem forall_mem_addRow_iff (h : rows.Pairwise (·.before ·)) :
    (∀ there ∈ addRow row rows, ¬ there.SharesFlag other) ↔
      ¬ row.SharesFlag other ∧ ∀ there ∈ rows, ¬ there.SharesFlag other := by
  simp only [mem_addRow h]
  constructor
  · intro hnone
    refine ⟨fun hrow => ?_, fun there hthere => hnone there (.inl hthere)⟩
    refine hnone row (.inr ⟨rfl, fun there hthere hshares => ?_⟩) hrow
    exact hnone there (.inl hthere) (hshares.trans hrow)
  · rintro ⟨hrow, hrows⟩ there (hthere | ⟨rfl, -⟩)
    · exact hrows there hthere
    · exact hrow

/-! ### Many rows -/

/-- The row of a flag that stands **first** among some rows. -/
def IsFirst (given : List CatalogRow) (row : CatalogRow) : Prop :=
  ∃ before after, given = before ++ row :: after ∧ ∀ other ∈ before, ¬ other.SharesFlag row

theorem isFirst_cons : IsFirst (row :: given) other ↔
    other = row ∨ IsFirst given other ∧ ¬ row.SharesFlag other := by
  constructor
  · rintro ⟨before, after, hgiven, hbefore⟩
    rcases List.cons_eq_append_iff.mp hgiven with ⟨-, h⟩ | ⟨rest, rfl, rfl⟩
    · exact .inl (List.cons.inj h).1
    · obtain ⟨hrow, hrest⟩ := List.forall_mem_cons.mp hbefore
      exact .inr ⟨⟨rest, after, rfl, hrest⟩, hrow⟩
  · rintro (rfl | ⟨⟨before, after, rfl, hbefore⟩, hrow⟩)
    · exact ⟨[], given, rfl, by simp⟩
    · exact ⟨row :: before, after, rfl, List.forall_mem_cons.mpr ⟨hrow, hbefore⟩⟩

/-- **Many rows** are put in one by one: the order is kept, and besides what was there the first
row of every other flag is found. -/
theorem mem_foldl_addRow (h : rows.Pairwise (·.before ·)) :
    (given.foldl (fun rows row => addRow row rows) rows).Pairwise (·.before ·) ∧
    ∀ other, other ∈ given.foldl (fun rows row => addRow row rows) rows ↔
      other ∈ rows ∨ IsFirst given other ∧ ∀ there ∈ rows, ¬ there.SharesFlag other := by
  induction given generalizing rows with
  | nil => simpa [IsFirst] using h
  | cons row rest ih =>
    obtain ⟨hordered, hmem⟩ := ih (@pairwise_addRow row _ h)
    refine ⟨hordered, fun other => ?_⟩
    rw [List.foldl_cons, hmem, isFirst_cons]
    rw [mem_addRow h, forall_mem_addRow_iff h, or_assoc, or_and_right, and_assoc]
    refine or_congr_right (or_congr_left (and_congr_right ?_))
    rintro rfl
    rfl

theorem isFirst_append {more : List CatalogRow} : IsFirst (given ++ more) row ↔
    IsFirst given row ∨ IsFirst more row ∧ ∀ other ∈ given, ¬ other.SharesFlag row := by
  induction given with
  | nil => simp [IsFirst]
  | cons first rest ih =>
    rw [List.cons_append, isFirst_cons, ih, isFirst_cons, List.forall_mem_cons]
    tauto

/-- If no flag has two rows, each of them is the first of its flag. -/
theorem isFirst_iff_mem
    (h : ∀ row ∈ given, ∀ other ∈ given, row.SharesFlag other → row = other) :
    IsFirst given row ↔ row ∈ given := by
  induction given with
  | nil => simp [IsFirst]
  | cons first rest ih =>
    obtain ⟨hfirst, hrest⟩ := List.forall_mem_cons.mp h
    rw [isFirst_cons, ih fun row hrow other hother =>
      hrest row hrow other (List.mem_cons_of_mem _ hother), List.mem_cons]
    constructor
    · exact fun h => h.imp_right And.left
    · rintro (rfl | hrow)
      · exact .inl rfl
      · by_cases hshares : first.SharesFlag row
        · exact .inl (hfirst row (List.mem_cons_of_mem _ hrow) hshares).symm
        · exact .inr ⟨hrow, hshares⟩

/-! ### The catalog -/

/-- The row of a flag of the vocabulary. -/
def properRow (flag : Flag) : CatalogRow :=
  ⟨flag.key, flag.isGlobal, flag.label⟩

theorem isFirst_mentioned {flags : List FlagRow} : IsFirst (flags.map mentionedRow) row ↔
    ⟨row.key, row.isGlobal⟩ ∈ flags ∧ row.label = row.key := by
  rw [isFirst_iff_mem]
  · rw [List.mem_map]
    constructor
    · rintro ⟨flag, hflag, rfl⟩
      exact ⟨hflag, rfl⟩
    · obtain ⟨key, isGlobal, label⟩ := row
      rintro ⟨hflag, hlabel⟩
      obtain rfl : label = key := hlabel
      exact ⟨_, hflag, rfl⟩
  · simp only [List.forall_mem_map]
    rintro ⟨key, isGlobal⟩ - ⟨other, isGlobal'⟩ - ⟨hkey, hglobal⟩
    obtain rfl : key = other := hkey
    obtain rfl : isGlobal = isGlobal' := hglobal
    rfl

/-- **The catalog** is in strictly ascending order. A flag that has been mentioned has its key as
its label there, and every other flag of the vocabulary its proper label. There are no others. -/
theorem catalog_exact (store : Store) :
    store.catalog.Pairwise (·.before ·) ∧
    ∀ row, row ∈ store.catalog ↔
      ⟨row.key, row.isGlobal⟩ ∈ store.flags ∧ row.label = row.key ∨
      ⟨row.key, row.isGlobal⟩ ∉ store.flags ∧ ∃ flag ∈ Flag.catalog, row = properRow flag := by
  obtain ⟨hordered, hmem⟩ :=
    @mem_foldl_addRow [] (store.flags.map mentionedRow ++ Flag.catalog.map properRow) .nil
  refine ⟨hordered, fun row => (hmem row).trans ?_⟩
  have hproper : IsFirst (Flag.catalog.map properRow) row ↔
      ∃ flag ∈ Flag.catalog, row = properRow flag := by
    rw [isFirst_iff_mem, List.mem_map]
    · simp only [eq_comm]
    · -- no flag is twice in the vocabulary
      decide +kernel
  have hunmentioned : (∀ other ∈ store.flags.map mentionedRow, ¬ other.SharesFlag row) ↔
      ⟨row.key, row.isGlobal⟩ ∉ store.flags := by
    rw [List.forall_mem_map]
    constructor
    · exact fun hnone hflag => hnone _ hflag ⟨rfl, rfl⟩
    · rintro hflag ⟨key, isGlobal⟩ hmem ⟨hkey, hglobal⟩
      obtain rfl : key = row.key := hkey
      obtain rfl : isGlobal = row.isGlobal := hglobal
      exact hflag hmem
  rw [isFirst_append, isFirst_mentioned, hproper, hunmentioned]
  simp [and_comm]

end Clearance.Store
