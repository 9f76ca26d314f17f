import Clearance.Identifier.Column
import Clearance.Proofs.Identifier.Sets
import Clearance.Proofs.Identifier.Spelling
import Clearance.Proofs.Rule.Defect

/-!
# Identifiers given as texts

Identifiers reach the library as texts, one by one or in the list of a group leaf, and nobody
says in which spelling. `Clearance.Uuid.coerce_exact` says that this cannot matter. A text is
refused or gives one identifier, which its written form gives again, and no spelling of an
identifier is refused. A group leaf holds the set of the identifiers that its list denotes:
in ascending order, each once (`Clearance.Uuid.pairwise_setOf`), so that spelling, order and
repetition leave no trace in it (`Clearance.Uuid.setOf_eq_setOf_iff`).
-/

namespace Clearance

namespace Uuid

/-! ### The list of a group leaf -/

theorem coerce_text (text : String) : coerce (.value (.text text)) = read text :=
  rfl

/-- An identifier is **denoted in a list** if some item is read as it. -/
def IsDenotedIn (id : Uuid) (items : List Value) : Prop :=
  ∃ item ∈ items, coerce (.value item) = .ok id

/-- A list is **all identifiers** if every item is read as one. -/
def AreIds (items : List Value) : Prop :=
  ∀ item ∈ items, ∃ id, coerce (.value item) = .ok id

end Uuid

namespace RuleTree

open Uuid

variable {limit : Int} {levels : Nat} {place : Place} {members : Members} {items : List Value}
  {item : Value} {id : Uuid} {ids : List Uuid}

theorem spellsId_iff : SpellsId item id ↔ coerce (.value item) = .ok id := by
  rw [← idOf?_eq_some_iff]
  cases item with
  | text text => exact Outcome.toOption_eq_some_iff
  | _ => simp [idOf?, coerce]

theorem mem_iff_isDenotedIn (h : List.Forall₂ SpellsId items ids) :
    id ∈ ids ↔ id.IsDenotedIn items := by
  rw [IsDenotedIn]
  simp only [← spellsId_iff]
  exact mem_iff_of_forall₂ h

/-- **A group leaf holds the set** of the identifiers that its list denotes, -/
theorem readNode_groups_ok (hleaf : Members.get? members "attribute" = none)
    (hgroups : Members.get? members "groups" = some (.list items)) (h : AreIds items) :
    ∃ ids, readNode limit (levels + 1) place (.object members) = .ok (.share (setOf ids)) ∧
      ∀ id, id ∈ ids ↔ id.IsDenotedIn items := by
  rw [readNode, hleaf, hgroups]
  dsimp only
  rw [readShare]
  rcases hids : items.mapM idOf? with _ | ids
  · obtain ⟨item, hitem, hnone⟩ := mapM_eq_none_iff.mp hids
    obtain ⟨id, hid⟩ := h item hitem
    exact absurd (spellsId_iff.mpr hid) (hnone id)
  · exact ⟨ids, rfl, fun id => mem_iff_isDenotedIn (mapM_eq_some_iff.mp hids)⟩

/-- and a list with an item that denotes none makes no group leaf. -/
theorem readNode_groups_error (hleaf : Members.get? members "attribute" = none)
    (hgroups : Members.get? members "groups" = some (.list items)) (h : ¬ AreIds items) :
    readNode limit (levels + 1) place (.object members) =
      defectAt (place ++ [.member "groups"]) .groupsNotIds := by
  have hnone : items.mapM idOf? = none := by
    rw [mapM_eq_none_iff]
    simpa [AreIds, spellsId_iff] using h
  rw [readNode, hleaf, hgroups]
  dsimp only
  rw [readShare, hnone]

/-- Lists that denote the same identifiers make the same group leaf. -/
theorem readNode_groups_congr {members' : Members} {items' : List Value}
    (hleaf : Members.get? members "attribute" = none)
    (hgroups : Members.get? members "groups" = some (.list items)) (h : AreIds items)
    (hleaf' : Members.get? members' "attribute" = none)
    (hgroups' : Members.get? members' "groups" = some (.list items')) (h' : AreIds items')
    (hsame : ∀ id : Uuid, id.IsDenotedIn items ↔ id.IsDenotedIn items') :
    readNode limit (levels + 1) place (.object members) =
      readNode limit (levels + 1) place (.object members') := by
  obtain ⟨ids, hread, hids⟩ : ∃ ids,
      readNode limit (levels + 1) place (.object members) = .ok (.share (setOf ids)) ∧
        ∀ id, id ∈ ids ↔ id.IsDenotedIn items :=
    readNode_groups_ok hleaf hgroups h
  obtain ⟨ids', hread', hids'⟩ : ∃ ids,
      readNode limit (levels + 1) place (.object members') = .ok (.share (setOf ids)) ∧
        ∀ id, id ∈ ids ↔ id.IsDenotedIn items' :=
    readNode_groups_ok hleaf' hgroups' h'
  have hset : setOf ids = setOf ids' :=
    setOf_eq_setOf_iff.mpr fun id => (hids id).trans ((hsame id).trans (hids' id).symm)
  rw [hread, hread', hset]

end RuleTree

namespace Uuid

open Text RuleTree

/-- **Leniency is safe.** Every text that spells an identifier is read as that identifier. Every
text whatever is refused, for the number of characters left of it or because these are no
literal, or is read as an identifier of at most 128 bits whose written form is read as the same.
A list of groups with an item that is no identifier is refused. Any other is read as the set of
the identifiers denoted, in ascending order; two lists that denote the same ones make the same
leaf. -/
theorem coerce_exact :
    (∀ (u : Uuid) (text : String), u.Spells text.toList → coerce (.value (.text text)) = .ok u) ∧
    (∀ text : String,
      (bare text.toList).length ≠ 32 ∧ coerce (.value (.text text)) = .error .badlyFormed ∨
      (bare text.toList).length = 32 ∧ hexLiteral? (bare text.toList) = none ∧
        coerce (.value (.text text)) =
          .error (.invalidLiteral (String.ofList (bare text.toList))) ∨
      (bare text.toList).length = 32 ∧ ∃ w : Uuid, w.number < 2 ^ 128 ∧
        hexLiteral? (bare text.toList) = some w.number ∧
        coerce (.value (.text text)) = .ok w ∧ coerce (.value (.text w.text)) = .ok w) ∧
    (∀ (limit : Int) (levels : Nat) (place : Place) (members : Members) (items : List Value),
      Members.get? members "attribute" = none →
      Members.get? members "groups" = some (.list items) →
      (AreIds items → ∃ ids,
        readNode limit (levels + 1) place (.object members) = .ok (.share ids) ∧
          ids.Pairwise (·.number < ·.number) ∧ ∀ id, id ∈ ids ↔ id.IsDenotedIn items) ∧
      (¬ AreIds items → readNode limit (levels + 1) place (.object members) =
        .error ⟨.groupsNotIds, some (place ++ [.member "groups"])⟩)) ∧
    (∀ (limit : Int) (levels : Nat) (place : Place) (members members' : Members)
        (items items' : List Value),
      Members.get? members "attribute" = none → Members.get? members' "attribute" = none →
      Members.get? members "groups" = some (.list items) →
      Members.get? members' "groups" = some (.list items') → AreIds items → AreIds items' →
      (∀ id : Uuid, id.IsDenotedIn items ↔ id.IsDenotedIn items') →
      readNode limit (levels + 1) place (.object members) =
        readNode limit (levels + 1) place (.object members')) := by
  simp only [coerce_text]
  refine ⟨fun u text h => read_eq_of_spells h, fun text => ?_, ?_, ?_⟩
  · rcases read_cases text with h | h | ⟨hlength, w, hliteral, hread⟩
    · exact .inl h
    · exact .inr (.inl h)
    · exact .inr (.inr ⟨hlength, w, w.number_lt, hliteral, hread, read_text w⟩)
  · intro limit levels place members items hleaf hgroups
    refine ⟨fun h => ?_, readNode_groups_error hleaf hgroups⟩
    obtain ⟨ids, hread, hids⟩ := readNode_groups_ok hleaf hgroups h
    exact ⟨setOf ids, hread, pairwise_setOf ids, fun id => mem_setOf.trans (hids id)⟩
  · intro limit levels place members members' items items' hleaf hleaf' hgroups hgroups' h h' hsame
    exact readNode_groups_congr hleaf hgroups h hleaf' hgroups' h' hsame

/-- A number in capitals, with odd hyphens, between braces and with the prefix of a resource
name: a list with this spelling makes the same leaf as one with the written form twice. -/
theorem coerce_exact_capitals :
    let capitals : Value := .text "urn:uuid:\x7b0-00000000000000000000-000000000AB\x7d"
    let written : Value := .text (171 : Uuid).text
    coerce (.value capitals) = .ok 171 ∧
      readNode 5 1 [] (.object [("groups", .list [capitals])]) =
        readNode 5 1 [] (.object [("groups", .list [written, written])]) := by
  intro capitals written
  have hdigits : AreDigitsOf (List.replicate 30 0 ++ [10, 11]) (171 : Uuid).number :=
    ⟨by decide, by decide⟩
  have hspelled : Spells 171 "0-00000000000000000000-000000000AB".toList :=
    .digits rfl hdigits (map_toLower_eq_iff.mp (by decide))
  have htext : "urn:uuid:\x7b0-00000000000000000000-000000000AB\x7d".toList =
      "urn:uuid:".toList ++
        ('\x7b' :: "0-00000000000000000000-000000000AB".toList ++ ['\x7d']) := by
    decide
  have hcapitals : coerce (.value capitals) = .ok 171 :=
    coerce_exact.1 171 _ (htext ▸ hspelled.braced.urn)
  have hwritten : coerce (.value written) = .ok 171 := coerce_exact.1 171 _ (spells_text 171)
  refine ⟨hcapitals, coerce_exact.2.2.2 5 0 [] _ _ _ _ rfl rfl rfl rfl ?_ ?_ ?_⟩
  · simp [AreIds, hcapitals]
  · simp [AreIds, hwritten]
  · simp [IsDenotedIn, hcapitals, hwritten]

end Uuid

end Clearance
