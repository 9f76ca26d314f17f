import Clearance.Condition.Sql
import Mathlib.Data.String.Basic

/-!
# Names in literals

The name of a field stands within the test for text as a literal, between quotes. A quote in the
name itself could end the literal too early, and the rest of the name would be taken for a part of
the test. It does not, as it is doubled: however a literal goes on, as long as no third quote
follows it, where it ends and which name it is of can be told
(`Clearance.literal_append_inj`). So the test for a field is that for no other
(`Clearance.textTest_inj`).
-/

namespace Clearance

variable {special : List Char} {quote : Char} {cs ds rest more : List Char}

/-- A character as it is written where some characters are doubled. -/
def writtenChar (special : List Char) (c : Char) : List Char :=
  if c ∈ special then [c, c] else [c]

/-- A doubled text does not end at a quote within it. The induction goes along both texts: where
one of them ends, a quote of the other would be doubled. -/
theorem flatMap_writtenChar_inj (hquote : quote ∈ special) (hrest : rest.head? ≠ some quote)
    (hmore : more.head? ≠ some quote)
    (h : cs.flatMap (writtenChar special) ++ quote :: rest =
      ds.flatMap (writtenChar special) ++ quote :: more) : cs = ds ∧ rest = more := by
  have hends : ∀ {c : Char} {tail after left : List Char}, left.head? ≠ some quote →
      quote :: left ≠ writtenChar special c ++ tail ++ quote :: after := by
    intro c tail after left hleft heq
    rw [writtenChar] at heq
    split at heq
    · obtain ⟨rfl, rfl⟩ := List.cons.inj heq
      exact hleft rfl
    · next hc =>
      obtain ⟨rfl, -⟩ := List.cons.inj heq
      exact hc hquote
  induction cs generalizing ds with
  | nil =>
    cases ds with
    | nil => exact ⟨rfl, (List.cons.inj h).2⟩
    | cons d ds => exact absurd h (hends hrest)
  | cons c cs ih =>
    cases ds with
    | nil => exact absurd h.symm (hends hmore)
    | cons d ds =>
      rw [List.flatMap_cons, List.flatMap_cons, List.append_assoc, List.append_assoc] at h
      obtain rfl : c = d := by
        rw [writtenChar, writtenChar] at h
        split at h <;> split at h <;> exact (List.cons.inj h).1
      obtain ⟨rfl, rfl⟩ := ih (List.append_cancel_left h)
      exact ⟨rfl, rfl⟩

variable {column : IdColumn} {field other : String}

theorem toList_literal (column : IdColumn) (field : String) : (literal column field).toList =
    '\'' :: (field.toList.flatMap (writtenChar (specialCharacters column)) ++ ['\'']) := by
  simp [literal, doubled]
  rfl

/-- **A literal ends** where its closing quote stands, and is of one name only. -/
theorem literal_append_inj {after afterOther : String} (hafter : after.toList.head? ≠ some '\'')
    (hother : afterOther.toList.head? ≠ some '\'')
    (h : literal column field ++ after = literal column other ++ afterOther) :
    field = other ∧ after = afterOther := by
  have hquote : '\'' ∈ specialCharacters column := by cases column <;> decide
  have hlists := congrArg String.toList h
  rw [String.toList_append, String.toList_append, toList_literal, toList_literal, List.cons_append,
    List.cons_append, List.append_assoc, List.append_assoc] at hlists
  obtain ⟨hfield, hafter⟩ :=
    flatMap_writtenChar_inj hquote hafter hother (List.cons.inj hlists).2
  exact ⟨String.toList_inj.mp hfield, String.toList_inj.mp hafter⟩

theorem literal_inj : literal column field = literal column other ↔ field = other := by
  refine ⟨fun h => ?_, fun h => h ▸ rfl⟩
  have hends : ("" : String).toList.head? ≠ some '\'' := by simp
  exact (literal_append_inj hends hends (congrArg (· ++ "") h)).1

theorem append_append_inj {before after : String} :
    before ++ field ++ after = before ++ other ++ after ↔ field = other := by
  simp [← String.toList_inj]

/-- What stands around the literal is the same in the tests for all fields. -/
theorem exists_textTest_eq (column : IdColumn) : ∃ before after,
    ∀ field, textTest column field = before ++ literal column field ++ after := by
  cases column
  · exact ⟨_, _, fun _ => rfl⟩
  · exact ⟨_, _, fun _ => rfl⟩

/-- **The test for a field** is the test for no other field. -/
theorem textTest_inj : textTest column field = textTest column other ↔ field = other := by
  obtain ⟨before, after, htest⟩ := exists_textTest_eq column
  rw [htest, htest, append_append_inj, literal_inj]

end Clearance
