import Clearance.Condition.Filter
import Clearance.Document.Access
import Clearance.Proofs.Rule.Grammar
import Mathlib.Data.List.TakeWhile

/-!
# Looking up plain fields

A store looks a field up by a path that puts it between quotes, and compares the label
with the names of members as they are written. This file says when it finds what the
document holds under the field: when the field is *plain*, made of characters that are
written as themselves (`Clearance.Path.isPlain`). Then the path is one step to a member
(`Clearance.Path.ofField_of_isPlain`), and no other name is written like the field
(`Clearance.Path.writtenLabel_eq_iff`).

The fields that rules name are plain (`Clearance.RuleTree.isPlain_of_isFieldName`), except
for the line feed that may stand at their end. A store finds nothing under a field with a line
feed, since no name is written with one. So it finds under a field name what the document holds
there, unless the document has a name that ends with a line feed
(`Clearance.Filter.member?_of_isFieldName`).
-/

namespace Clearance

namespace Path

/-- Whether a field is **plain**: each of its characters is written as itself. -/
def isPlain (field : String) : Bool :=
  field.toList.all fun c => c != '"' && c != '\\' && 32 ≤ c.toNat && c.toNat < 127

variable {field name : String} {c : Char}

theorem ne_of_isPlain (h : isPlain field = true) (hc : c ∈ field.toList) :
    c ≠ '"' ∧ c ≠ '\\' ∧ 32 ≤ c.toNat ∧ c.toNat < 127 := by
  have hplain := List.all_eq_true.mp h c hc
  simp only [Bool.and_eq_true, bne_iff_ne, decide_eq_true_eq] at hplain
  obtain ⟨⟨⟨hquote, hbackslash⟩, hlow⟩, hhigh⟩ := hplain
  exact ⟨hquote, hbackslash, hlow, hhigh⟩

/-- The path to a field without quotes is one step to a member. -/
theorem ofField_of_unquoted (h : ∀ c ∈ field.toList, c ≠ '"' ∧ c ≠ '\x00') :
    ofField field = member field.toList finish := by
  -- the path has no NUL, and its first quote is the one that closes it
  have huntil : Text.untilNul (field.toList ++ ['"']) = field.toList ++ ['"'] := by
    refine List.takeWhile_eq_self_iff.mpr fun c hc => ?_
    rw [bne_iff_ne]
    rcases List.mem_append.mp hc with hc | hc
    · exact (h c hc).2
    · rw [List.mem_singleton.mp hc]
      decide
  have hquotes : ∀ c ∈ field.toList, (c != '"') = true :=
    fun c hc => bne_iff_ne.mpr (h c hc).1
  have hlabel : (field.toList ++ ['"']).takeWhile (· != '"') = field.toList := by
    rw [List.takeWhile_append_of_pos hquotes]
    exact List.append_nil _
  have hrest : (field.toList ++ ['"']).dropWhile (· != '"') = ['"'] := by
    rw [List.dropWhile_append_of_pos hquotes]
    rfl
  have hstep : readMember ('"' :: (field.toList ++ ['"'])) = (member field.toList, []) := by
    simp only [readMember, hlabel, hrest]
  rw [ofField, huntil]
  simp only [List.length_cons, read, hstep]

/-- A plain field is one of them. -/
theorem ofField_of_isPlain (h : isPlain field = true) :
    ofField field = member field.toList finish := by
  refine ofField_of_unquoted fun c hc => ⟨(ne_of_isPlain h hc).1, ?_⟩
  rintro rfl
  exact absurd (ne_of_isPlain h hc).2.2.1 (by decide)

/-- A character is written as itself, or with an escape. -/
theorem writtenChar_cases (c : Char) :
    Document.writtenChar c = [c] ∨ '\\' ∈ Document.writtenChar c := by
  unfold Document.writtenChar
  repeat' split
  all_goals first
    | exact .inl rfl
    | exact .inr (by simp [Document.unitEscape])

/-- A plain character is written as itself. -/
theorem writtenChar_of_plain (hquote : c ≠ '"') (hbackslash : c ≠ '\\') (hlow : 32 ≤ c.toNat)
    (hhigh : c.toNat < 127) : Document.writtenChar c = [c] := by
  have hcontrol : ∀ d : Char, d.toNat < 32 → c ≠ d := by
    rintro d hd rfl
    omega
  rw [Document.writtenChar, if_neg hquote, if_neg hbackslash, if_neg (hcontrol _ (by decide)),
    if_neg (hcontrol _ (by decide)), if_neg (hcontrol _ (by decide)),
    if_neg (hcontrol _ (by decide)), if_neg (hcontrol _ (by decide)), if_pos ⟨hlow, hhigh⟩]

theorem flatMap_writtenChar {chars : List Char} (h : ∀ c ∈ chars, Document.writtenChar c = [c]) :
    chars.flatMap Document.writtenChar = chars := by
  induction chars with
  | nil => rfl
  | cons c rest ih =>
    obtain ⟨hc, hrest⟩ := List.forall_mem_cons.mp h
    rw [List.flatMap_cons, hc, ih hrest]
    rfl

/-- A name that is written like a field without a backslash is the field, and has no
escapes. -/
theorem eq_of_writtenLabel (hbackslash : '\\' ∉ field.toList)
    (h : writtenLabel name = field.toList) :
    name = field ∧ ∀ c ∈ field.toList, Document.writtenChar c = [c] := by
  have hchars : ∀ c ∈ name.toList, Document.writtenChar c = [c] := by
    intro c hc
    rcases writtenChar_cases c with hsame | hescape
    · exact hsame
    · -- an escape would put a backslash into the field
      refine absurd ?_ hbackslash
      rw [← h]
      exact List.mem_flatMap.mpr ⟨c, hc, hescape⟩
  rw [writtenLabel, flatMap_writtenChar hchars] at h
  obtain rfl := String.toList_injective h
  exact ⟨rfl, hchars⟩

/-- **No other name is written like a plain field.** -/
theorem writtenLabel_eq_iff (h : isPlain field = true) :
    writtenLabel name = field.toList ↔ name = field := by
  constructor
  · exact fun hwritten => (eq_of_writtenLabel (fun hc => (ne_of_isPlain h hc).2.1 rfl) hwritten).1
  · rintro rfl
    refine flatMap_writtenChar fun c hc => ?_
    obtain ⟨hquote, hbackslash, hlow, hhigh⟩ := ne_of_isPlain h hc
    exact writtenChar_of_plain hquote hbackslash hlow hhigh

/-- The member with a plain label is the one of that name. -/
theorem labelled?_eq_get? (h : isPlain field = true) (members : Members) :
    labelled? field.toList members = members.get? field := by
  induction members with
  | nil => rfl
  | cons entry rest ih =>
    obtain ⟨name, value⟩ := entry
    have hiff : writtenLabel name = field.toList ↔ name = field := writtenLabel_eq_iff h
    rw [labelled?, List.find?_cons, Members.get?, List.lookup_cons]
    by_cases hname : name = field
    · subst hname
      have hwritten : (writtenLabel name == name.toList) = true := by
        rw [beq_iff_eq]
        exact hiff.mpr rfl
      simp [hwritten]
    · have hwritten : (writtenLabel name == field.toList) = false :=
        beq_eq_false_iff_ne.mpr fun hsame => hname (hiff.mp hsame)
      have hother : (field == name) = false := beq_eq_false_iff_ne.mpr fun hsame => hname hsame.symm
      rw [hwritten, hother]
      exact ih

end Path

namespace RuleTree

/-- The characters of field names are plain: letters, digits, the underscore and the
hyphen. -/
theorem plain_of_isFieldChar {c : Char} (h : isFieldChar c = true) :
    c ≠ '"' ∧ c ≠ '\\' ∧ 32 ≤ c.toNat ∧ c.toNat < 127 := by
  have hrange : 45 ≤ c.toNat ∧ c.toNat < 127 ∧ c.toNat ≠ 92 := by
    change ((decide (65 ≤ c.toNat ∧ c.toNat ≤ 90) ||
      (decide (97 ≤ c.toNat) && decide (c.toNat ≤ 122)) ||
      (decide (48 ≤ c.toNat) && decide (c.toNat ≤ 57)) || c == '_') || c == '-') = true at h
    simp only [Bool.or_eq_true, Bool.and_eq_true, decide_eq_true_eq, beq_iff_eq] at h
    rcases h with (((h | h) | h) | rfl) | rfl
    · omega
    · omega
    · omega
    · decide
    · decide
  refine ⟨?_, ?_, by omega, hrange.2.1⟩
  · rintro rfl
    exact absurd hrange.1 (by decide)
  · rintro rfl
    exact hrange.2.2 rfl

variable {field : String}

/-- A field name has no other characters, except for a line feed. -/
theorem isFieldChar_or_eq_of_isFieldName (h : isFieldName field = true) {c : Char}
    (hc : c ∈ field.toList) : isFieldChar c = true ∨ c = '\n' := by
  obtain ⟨first, others, ending, hname, hfirst, hothers, -, hending⟩ := isFieldName_iff.mp h
  rw [hname] at hc
  rcases List.mem_append.mp hc with hc | hc
  · rcases List.mem_cons.mp hc with rfl | hc
    · exact .inl (by rw [isFieldChar, hfirst, Bool.true_or])
    · exact .inl (hothers c hc)
  · rcases hending with rfl | rfl
    · cases hc
    · exact .inr (List.mem_singleton.mp hc)

/-- No quote and no backslash stands in a field name. -/
theorem unquoted_of_isFieldName (h : isFieldName field = true) :
    ∀ c ∈ field.toList, (c ≠ '"' ∧ c ≠ '\x00') ∧ c ≠ '\\' := by
  intro c hc
  rcases isFieldChar_or_eq_of_isFieldName h hc with hchar | rfl
  · obtain ⟨hquote, hbackslash, hlow, -⟩ := plain_of_isFieldChar hchar
    refine ⟨⟨hquote, ?_⟩, hbackslash⟩
    rintro rfl
    exact absurd hlow (by decide)
  · decide

/-- **A field name is plain**, unless a line feed stands at its end. -/
theorem isPlain_of_isFieldName (h : isFieldName field = true)
    (hfeed : field.toList.getLast? ≠ some '\n') : Path.isPlain field = true := by
  obtain ⟨first, others, ending, hname, hfirst, hothers, -, rfl | rfl⟩ := isFieldName_iff.mp h
  · have hchars : ∀ c ∈ first :: others, isFieldChar c = true :=
      List.forall_mem_cons.mpr ⟨by rw [isFieldChar, hfirst, Bool.true_or], hothers⟩
    rw [Path.isPlain, hname, List.append_nil, List.all_eq_true]
    intro c hc
    simp only [Bool.and_eq_true, bne_iff_ne, decide_eq_true_eq, and_assoc]
    exact plain_of_isFieldChar (hchars c hc)
  · exact absurd (by rw [hname, List.getLast?_concat]) hfeed

end RuleTree

namespace Filter

variable {field : String}

/-- **A store finds under a plain field what the document holds there.** -/
theorem member?_of_isPlain (h : Path.isPlain field = true) (data : Value) :
    member? data field = data.get? field := by
  rw [member?, Path.ofField_of_isPlain h]
  cases data with
  | object members =>
    rw [Path.walk?, Path.labelled?_eq_get? h, Value.get?]
    cases Members.get? members field <;> rfl
  | _ => rfl

/-- **A store finds nothing under a field with a line feed**: a name that has one is written
with an escape. -/
theorem member?_of_lineFeed (h : RuleTree.isFieldName field = true)
    (hfeed : field.toList.getLast? = some '\n') (data : Value) : member? data field = none := by
  have hunquoted := RuleTree.unquoted_of_isFieldName h
  have hnone : ∀ members, Path.labelled? field.toList members = none := by
    intro members
    rw [Path.labelled?, Option.map_eq_none_iff, List.find?_eq_none]
    intro entry _
    rw [beq_iff_eq]
    intro hwritten
    have hbackslash : '\\' ∉ field.toList := fun hc => (hunquoted _ hc).2 rfl
    have hescape :=
      (Path.eq_of_writtenLabel hbackslash hwritten).2 '\n' (List.mem_of_getLast? hfeed)
    exact absurd hescape (by decide)
  rw [member?, Path.ofField_of_unquoted fun c hc => (hunquoted c hc).1]
  cases data with
  | object members => rw [Path.walk?, hnone, Option.bind_none]
  | _ => rfl

/-- **A store finds under a field name what the document holds there**, unless that is under a
name that ends with a line feed. -/
theorem member?_of_isFieldName (h : RuleTree.isFieldName field = true) {data : Value}
    (hdata : field.toList.getLast? = some '\n' → data.get? field = none) :
    member? data field = data.get? field := by
  by_cases hfeed : field.toList.getLast? = some '\n'
  · rw [member?_of_lineFeed h hfeed, hdata hfeed]
  · exact member?_of_isPlain (RuleTree.isPlain_of_isFieldName h hfeed) data

end Filter

end Clearance
