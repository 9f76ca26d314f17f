import Clearance.Column.Carrier
import Clearance.Proofs.Filter.Meaning
import Clearance.Proofs.Identifier.Text
import Clearance.Proofs.Outcome
import Clearance.Proofs.Table
import Mathlib.Data.List.Forall2

/-!
# Comparing columns

A store compares what a column stores with what an operand is handed over as, and neither is
the cell or the operand itself. This file says when that makes no difference.

* Every cell of an object fits the column of its attribute (`Clearance.Entity.fits_cell`).
* For operands of the type of a column of identifiers, texts or truth values, the store
  compares as the cell does (`Clearance.Cell.eval_equals`), whatever carrier is chosen.
* A column of documents stores written forms, so a list or an object equals another when
  both are written alike (`Clearance.Cell.equals_stored_document`). That is not the same as
  being the same: members may stand in another order.
-/

namespace Clearance

/-! ### Cells and their columns -/

/-- A cell that **fits** a column. -/
def Cell.Fits : Column → Cell → Prop
  | .id, cell => ∃ id, cell = ofId id
  | .related, cell => ∃ ids, cell = related ids
  | .parts, cell => ∃ count, cell = parts count
  | .loaded, cell => ∃ isLoaded, cell = ofLoaded isLoaded
  | column, cell => ∃ document, cell = content column document

/-- A column and a cell of one name that fit. -/
def Cell.Matches (column : String × Column) (cell : String × Cell) : Prop :=
  column.1 = cell.1 ∧ cell.2.Fits column.2

theorem Entity.forall₂_cells (entity : Entity) :
    List.Forall₂ Cell.Matches entity.kind.columns entity.cells := by
  cases entity <;>
    simp [kind, Kind.columns, Listed.columns, cells, Listed.cells, Cell.Matches, Cell.Fits]

/-- What is found by name among columns is found among the cells, and fits. -/
theorem Cell.exists_lookup {columns : List (String × Column)} {cells : List (String × Cell)}
    (h : List.Forall₂ Cell.Matches columns cells) {name : String} {column : Column}
    (hcolumn : columns.lookup name = some column) :
    ∃ cell, cells.lookup name = some cell ∧ cell.Fits column := by
  induction h with
  | nil => simp at hcolumn
  | @cons first named columns cells hfirst _ ih =>
    obtain ⟨hname, hfits⟩ := hfirst
    obtain ⟨name', other⟩ := first
    obtain ⟨_, cell⟩ := named
    obtain rfl := hname
    rw [Table.lookup_cons] at hcolumn ⊢
    split at hcolumn
    · next hfound =>
      obtain rfl : other = column := Option.some.inj hcolumn
      exact ⟨cell, if_pos hfound, hfits⟩
    · next hfound =>
      rw [if_neg hfound]
      exact ih hcolumn

/-- **Every cell fits** the column of its attribute. -/
theorem Entity.fits_cell {entity : Entity} {name : String} {column : Column}
    (h : entity.kind.column? name = some column) : (entity.cell name).Fits column := by
  obtain ⟨found, hfound, hfits⟩ := Cell.exists_lookup entity.forall₂_cells h
  rw [cell, hfound]
  exact hfits

/-! ### Types -/

namespace Column

/-- Whether a column holds identifiers, texts or truth values. -/
def isScalar : Column → Bool
  | .id | .text | .flag => true
  | _ => false

/-- Whether an operand is of the **type of a column**. -/
def suits : Column → Operand → Bool
  | .id, .id _ | .text, .value (.text _) | .flag, .value (.flag _)
  | .document, .value (.list _) | .document, .value (.object _) => true
  | _, _ => false

/-- What a column **holds**: columns of texts and truth values hold nothing else, unless
they are empty. -/
def Holds : Column → Value → Prop
  | .text, held => held = .null ∨ ∃ spelling, held = .text spelling
  | .flag, held => held = .null ∨ ∃ isSet, held = .flag isSet
  | _, _ => True

/-- A truth value is handed over as a number or not at all. -/
theorem exists_of_asTruth {operand : Operand} {handed : Stored}
    (h : Carrier.asTruth operand = .ok handed) :
    handed = .empty ∨ ∃ flag, handed = .ofFlag flag := by
  unfold Carrier.asTruth at h
  split at h
  · exact .inl (Except.ok.inj h).symm
  · split at h
    · exact .inr ⟨true, (Except.ok.inj h).symm⟩
    · split at h
      · exact .inr ⟨false, (Except.ok.inj h).symm⟩
      · simp at h
  · simp at h

/-- **What comes back from a column** is what it holds, whatever was put in. -/
theorem holds_of_reload {column : Column} {given held : Value}
    (h : column.reload given = .ok held) : column.Holds held := by
  cases column with
  | text =>
    obtain ⟨stored, hstored, rfl⟩ := Outcome.map_eq_ok.mp h
    obtain ⟨handed, -, rfl⟩ := Outcome.map_eq_ok.mp hstored
    cases handed <;> simp [affinity, Affinity.bring, Holds]
  | flag =>
    obtain ⟨stored, hstored, rfl⟩ := Outcome.map_eq_ok.mp h
    obtain ⟨handed, hhanded, rfl⟩ := Outcome.map_eq_ok.mp hstored
    rcases exists_of_asTruth hhanded with rfl | ⟨isSet, rfl⟩ <;>
      simp [affinity, Affinity.bring, Stored.ofFlag, Holds]
  | _ => trivial

end Column

/-! ### Operands handed over -/

namespace Stored

/-- What stands between two brackets or two quotes spells no number. -/
theorem numeral?_of_brackets {opening closing : Char} (inner : List Char)
    (h : opening = '[' ∧ closing = ']' ∨ opening = '\x7b' ∧ closing = '\x7d' ∨
      opening = '"' ∧ closing = '"') :
    numeral? (opening :: inner ++ [closing]) = none := by
  have hfront : (opening :: inner ++ [closing]).dropWhile isPadding =
      opening :: inner ++ [closing] := by
    rcases h with ⟨rfl, -⟩ | ⟨rfl, -⟩ | ⟨rfl, -⟩ <;> rfl
  have hback : (opening :: inner ++ [closing]).reverse.dropWhile isPadding =
      (opening :: inner ++ [closing]).reverse := by
    rw [List.reverse_append]
    rcases h with ⟨-, rfl⟩ | ⟨-, rfl⟩ | ⟨-, rfl⟩ <;> rfl
  rw [numeral?, hfront, hback, List.reverse_reverse]
  rcases h with ⟨rfl, -⟩ | ⟨rfl, -⟩ | ⟨rfl, -⟩ <;> rfl

end Stored

namespace Column

/-- An operand as a column stores a value of its type. -/
def stored : Operand → Stored
  | .id key => .text key.text
  | .value (.text spelling) => .text spelling
  | .value (.flag isSet) => .ofFlag isSet
  | .value plain => .text plain.written

/-- The written form of a list or an object spells no number, so a column that prefers
numbers stores it as it is. -/
theorem bring_written {plain : Value} (h : plain.isAtom = false) :
    Affinity.numbers.bring (.text plain.written) = .text plain.written := by
  have hnone : Stored.numeral? plain.written.toList = none := by
    cases plain with
    | list items =>
      rw [Value.written, Document.writtenSequence, String.toList_append, String.toList_append]
      exact Stored.numeral?_of_brackets _ (.inl ⟨rfl, rfl⟩)
    | object members =>
      rw [Value.written, Document.writtenSequence, String.toList_append, String.toList_append]
      exact Stored.numeral?_of_brackets _ (.inr (.inl ⟨rfl, rfl⟩))
    | _ => simp [Value.isAtom] at h
  rw [Affinity.bring, hnone, Option.getD_none]

/-- **What is of the type of a column**, column by column. -/
theorem suits_cases {column : Column} {operand : Operand} (h : column.suits operand = true) :
    (∃ key, column = .id ∧ operand = .id key) ∨
      (∃ spelling, column = .text ∧ operand = .value (.text spelling)) ∨
      (∃ isSet, column = .flag ∧ operand = .value (.flag isSet)) ∨
      ∃ plain : Value, column = .document ∧ operand = .value plain ∧ plain.isAtom = false := by
  cases operand with
  | id key => cases column <;> simp [suits] at h ⊢
  | value plain => cases plain <;> cases column <;> simp [suits, Value.isAtom] at h ⊢

/-- **An operand of the type of a column** is handed over as the column stores it. -/
theorem take_of_suits {column : Column} {operand : Operand} (h : column.suits operand = true) :
    column.take operand = .ok (stored operand) := by
  rcases suits_cases h with ⟨key, rfl, rfl⟩ | ⟨spelling, rfl, rfl⟩ | ⟨isSet, rfl, rfl⟩ |
    ⟨plain, rfl, rfl, hplain⟩
  · rfl
  · rfl
  · rfl
  · cases plain with
    | list items => exact congrArg Except.ok (bring_written hplain)
    | object members => exact congrArg Except.ok (bring_written hplain)
    | _ => simp [Value.isAtom] at hplain

/-- So are several operands, whichever is the first. -/
theorem takeAll_of_suits {column : Column} {operands : List Operand}
    (hscalar : column.isScalar = true) (h : operands.all column.suits = true) :
    column.takeAll operands = operands.map fun operand => .ok (stored operand) := by
  cases operands with
  | nil => rfl
  | cons first rest =>
    have hfirst := List.all_eq_true.mp h first List.mem_cons_self
    refine List.map_congr_left fun operand hoperand => ?_
    have hsuits := List.all_eq_true.mp h operand hoperand
    -- the carrier is that of the first operand, so the types of both are needed
    rcases suits_cases hfirst with ⟨key, rfl, rfl⟩ | ⟨spelling, rfl, rfl⟩ | ⟨isSet, rfl, rfl⟩ |
      ⟨plain, rfl, rfl, hplain⟩
    · obtain ⟨other, rfl⟩ : ∃ other, operand = .id other := by simpa using suits_cases hsuits
      rfl
    · obtain ⟨other, rfl⟩ : ∃ other, operand = .value (.text other) := by
        simpa using suits_cases hsuits
      rfl
    · obtain ⟨other, rfl⟩ : ∃ other, operand = .value (.flag other) := by
        simpa using suits_cases hsuits
      cases other <;> rfl
    · simp [isScalar] at hscalar

end Column

namespace Cell

/-! ### Comparison in the store -/

/-- A cell whose column holds what it can hold. -/
def IsTyped (cell : Cell) : Prop :=
  ∀ column held, cell = content column held → column.Holds held

variable {column : Column} {cell : Cell} {operand : Operand} {held plain : Value}

/-- A cell of a scalar column is either empty, and then holds nothing, or it is compared in
the store as in memory. -/
theorem stored_cases (hfits : cell.Fits column) (hscalar : column.isScalar = true)
    (htyped : cell.IsTyped) :
    cell.stored = .empty ∧ (∀ operand, cell.equals operand = false) ∨
      cell.stored ≠ .empty ∧ ∀ operand, column.suits operand = true →
        cell.stored.equals (Column.stored operand) = some (cell.equals operand) := by
  cases column with
  | id =>
    obtain ⟨_ | key, rfl⟩ := hfits
    · exact .inl ⟨rfl, equals_null⟩
    · refine .inr ⟨by simp [ofId, Cell.stored], fun operand hsuits => ?_⟩
      obtain ⟨other, rfl⟩ : ∃ other, operand = .id other := by
        simpa using Column.suits_cases hsuits
      -- the store compares what identifiers are written like
      have hsame : (key.text == other.text) = (key == other) := by
        rw [Bool.eq_iff_iff, beq_iff_eq, beq_iff_eq, Uuid.text_inj]
      exact congrArg some hsame
  | text =>
    obtain ⟨held, rfl⟩ := hfits
    rcases htyped .text held rfl with rfl | ⟨spelling, rfl⟩
    · exact .inl ⟨rfl, fun _ => rfl⟩
    · have hstored : (content .text (.text spelling)).stored = .text spelling := rfl
      refine .inr ⟨by simp [hstored], fun operand hsuits => ?_⟩
      obtain ⟨other, rfl⟩ : ∃ other, operand = .value (.text other) := by
        simpa using Column.suits_cases hsuits
      have hsame : (Value.text spelling).same (.text other) = (spelling == other) := by
        simp [Value.same, Value.sameAtom]
      exact congrArg some hsame.symm
  | flag =>
    obtain ⟨held, rfl⟩ := hfits
    rcases htyped .flag held rfl with rfl | ⟨isSet, rfl⟩
    · exact .inl ⟨rfl, fun _ => rfl⟩
    · -- the store compares numbers
      have hstored : (content .flag (.flag isSet)).stored = .ofFlag isSet := by
        cases isSet <;> rfl
      refine .inr ⟨by simp [hstored, Stored.ofFlag], fun operand hsuits => ?_⟩
      obtain ⟨other, rfl⟩ : ∃ other, operand = .value (.flag other) := by
        simpa using Column.suits_cases hsuits
      have hsame : (content .flag (.flag isSet)).equals (.value (.flag other)) =
          (isSet == other) := by
        simp [equals, Value.same, Value.sameAtom]
      rw [hstored, hsame]
      cases isSet <;> cases other <;> rfl
  | _ => simp [Column.isScalar] at hscalar

theorem isPresent_iff {stored : Stored} : Filter.isPresent stored = true ↔ stored ≠ .empty :=
  bne_iff_ne

/-- **A guarded comparison** of a scalar column with one operand means what the cell says, -/
theorem eval_equals (hfits : cell.Fits column) (hscalar : column.isScalar = true)
    (htyped : cell.IsTyped) (hsuits : column.suits operand = true) :
    Truth.and (some (Filter.isPresent cell.stored)) (cell.stored.equals (Column.stored operand)) =
      some (cell.equals operand) := by
  rcases stored_cases hfits hscalar htyped with ⟨hempty, hnone⟩ | ⟨hpresent, hequals⟩
  · rw [hempty, hnone]
    rfl
  · rw [isPresent_iff.mpr hpresent, Truth.true_and, hequals operand hsuits]

/-- and so does one with several operands. -/
theorem eval_among (hfits : cell.Fits column) (hscalar : column.isScalar = true)
    (htyped : cell.IsTyped) {operands : List Operand} (hsuits : operands.all column.suits = true) :
    Truth.and (some (Filter.isPresent cell.stored))
        (cell.stored.among (operands.map Column.stored)) = some (operands.any cell.equals) := by
  rcases stored_cases hfits hscalar htyped with ⟨hempty, hnone⟩ | ⟨hpresent, hequals⟩
  · have hany : operands.any cell.equals = false :=
      List.any_eq_false.mpr fun operand _ => by simp [hnone operand]
    rw [hempty, hany]
    exact Truth.false_and _
  · rw [isPresent_iff.mpr hpresent, Truth.true_and]
    induction operands with
    | nil => rfl
    | cons operand rest ih =>
      rw [List.all_cons, Bool.and_eq_true] at hsuits
      rw [List.map_cons, Stored.among, hequals operand hsuits.1, ih hsuits.2, Truth.or_some,
        List.any_cons]

/-! ### Documents -/

/-- A list or an object is written with a bracket at the beginning, -/
theorem head_written (h : plain.isAtom = false) :
    plain.written.toList.head? = some '[' ∨ plain.written.toList.head? = some '\x7b' := by
  cases plain with
  | list items => simp [Value.written, Document.writtenSequence]
  | object members => simp [Value.written, Document.writtenSequence]
  | _ => simp [Value.isAtom] at h

/-- so a text that begins otherwise is not its written form. -/
theorem ne_written (h : plain.isAtom = false) {spelling : String} {first : Char}
    (hfirst : spelling.toList.head? = some first) (hne : first ≠ '[' ∧ first ≠ '\x7b') :
    (spelling == plain.written) = false := by
  rw [beq_eq_false_iff_ne]
  rintro rfl
  rcases head_written h with hhead | hhead <;> rw [hhead] at hfirst
  · exact hne.1 (Option.some.inj hfirst).symm
  · exact hne.2 (Option.some.inj hfirst).symm

/-- In memory a list or an object is compared with a document as a whole. -/
theorem equals_document (h : plain.isAtom = false) :
    (content .document held).equals (.value plain) = (!held.isAtom && held.same plain) := by
  cases held <;> cases plain <;>
    first | rfl | simp [Value.isAtom] at h

/-- No cell holds nothing. -/
theorem equals_nothing (cell : Cell) : cell.equals (.value .null) = false := by
  cases cell with
  | content column held => cases held <;> simp [equals, Value.same, Value.sameAtom]
  | _ => rfl

/-- A document that is no number is stored in its written form. -/
theorem stored_document (hinteger : ∀ number, held ≠ .integer number)
    (hreal : ∀ number, held ≠ .real number) :
    (content .document held).stored = .text held.written := by
  have hbring : Affinity.numbers.bring (.text held.written) = .text held.written := by
    cases held with
    | null => rfl
    | flag isSet => cases isSet <;> rfl
    | text spelling =>
      have hnone : Stored.numeral? (Document.writtenText spelling).toList = none := by
        rw [Document.writtenText, String.toList_ofList]
        exact Stored.numeral?_of_brackets _ (.inr (.inr ⟨rfl, rfl⟩))
      rw [Value.written, Affinity.bring, hnone, Option.getD_none]
    | list items => exact Column.bring_written rfl
    | object members => exact Column.bring_written rfl
    | integer number => exact absurd rfl (hinteger number)
    | real number => exact absurd rfl (hreal number)
  cases held with
  | integer number => exact absurd rfl (hinteger number)
  | real number => exact absurd rfl (hreal number)
  | _ =>
    simp only [stored, Column.store, Column.takeBy, Column.carrier, Carrier.hand, Carrier.asWritten,
      Except.map, Except.toOption, Option.getD_some, Column.affinity]
    exact hbring

/-- **A column of documents** is never empty, and equals a list or an object if it holds one
that is written alike. -/
theorem equals_stored_document (h : plain.isAtom = false) :
    (content .document held).stored ≠ .empty ∧
      (content .document held).stored.equals (.text plain.written) =
        some (!held.isAtom && held.written == plain.written) := by
  -- a number is stored as a number, everything else as a text
  have htext : ∀ {spelling answer}, (content .document held).stored = .text spelling →
      (spelling == plain.written) = answer → (content .document held).stored ≠ .empty ∧
        (content .document held).stored.equals (.text plain.written) = some answer := by
    intro spelling answer hstored hanswer
    rw [hstored]
    exact ⟨by simp, congrArg some hanswer⟩
  cases held with
  | integer number =>
    have hinteger : (content .document (.integer number)).stored = .integer number := rfl
    rw [hinteger]
    exact ⟨by simp, rfl⟩
  | real number =>
    have hreal : (content .document (.real number)).stored = Stored.ofReal number := rfl
    rw [hreal, Stored.ofReal]
    split
    · split <;> exact ⟨by simp, rfl⟩
    · exact ⟨by simp, rfl⟩
  | null =>
    have hne : ("null" == plain.written) = false := ne_written h rfl (by decide)
    exact htext (stored_document (by simp) (by simp)) hne
  | flag isSet =>
    have hne : ((Value.flag isSet).written == plain.written) = false := by
      cases isSet
      · exact ne_written h rfl (by decide)
      · exact ne_written h rfl (by decide)
    exact htext (stored_document (by simp) (by simp)) hne
  | text spelling =>
    have hquote : (Value.text spelling).written.toList.head? = some '"' := by
      rw [Value.written, Document.writtenText, String.toList_ofList]
      rfl
    have hne : ((Value.text spelling).written == plain.written) = false :=
      ne_written h hquote (by decide)
    exact htext (stored_document (by simp) (by simp)) hne
  | list items => exact htext (stored_document (by simp) (by simp)) rfl
  | object members => exact htext (stored_document (by simp) (by simp)) rfl

end Cell

end Clearance
