import Clearance.Proofs.Rule.Grammar
import Mathlib.Data.List.Lex

/-!
# The first defect of a stored rule

A document that spells no tree has a defect somewhere. This file says where the reader finds
one. The nodes of a document are its root and, below an object that joins rules, the nodes of
each rule (`Clearance.RuleTree.NodeAt`); a node is named by the indices that lead to it, and
the order of these paths as lists of numbers is the order in which a reader comes to the
nodes: a node before its children, the children from the left. What is wrong with a node
itself, apart from its children, is `Clearance.RuleTree.HasDefect`, along with the member in
which it lies.

The reader reports the defect of the first node that has one
(`Clearance.RuleTree.exists_firstDefect`), and a document in the grammar has none
(`Clearance.RuleTree.not_isDefective_of_spells`), so it reports nothing else.
-/

namespace Clearance.RuleTree

/-! ### Nodes and their defects -/

/-- The **node** of a document at a path of indices. -/
inductive NodeAt : Value → List Nat → Value → Prop
  /-- The document itself. -/
  | here (document : Value) : NodeAt document [] document
  /-- A node of a rule that an object joins. -/
  | child {members : Members} {items : List Value} {index : Nat} {item : Value} {path : List Nat}
      {node : Value} (hleaf : Members.get? members "attribute" = none)
      (hgroups : Members.get? members "groups" = none)
      (hrules : Members.get? members "rules" = some (.list items))
      (hitem : items[index]? = some item) (hnode : NodeAt item path node) :
      NodeAt (.object members) (index :: path) node

/-- A **defect** of a node itself, and the members in which it lies, when the node is nested
`depth` levels deep and `limit` levels are allowed. A member that is missing counts as nothing. -/
inductive HasDefect (limit : Int) (depth : Nat) : Value → List String → Defect → Prop
  /-- A node below the deepest level has no other defect. -/
  | tooDeep {node : Value} (hdepth : limit < depth) : HasDefect limit depth node [] (.tooDeep limit)
  | notObject {node : Value} (hdepth : depth ≤ limit) (hnode : ∀ members, node ≠ .object members) :
      HasDefect limit depth node [] (.notObject node)
  | attributeNotObject {members : Members} {leaf : Value} (hdepth : depth ≤ limit)
      (hleaf : members.get? "attribute" = some leaf)
      (hobject : ∀ members, leaf ≠ .object members) :
      HasDefect limit depth (.object members) ["attribute"] .attributeNotObject
  | category {members leaf : Members} (hdepth : depth ≤ limit)
      (hleaf : members.get? "attribute" = some (.object leaf))
      (hcategory : ∀ id, ¬ SpellsId ((leaf.get? "category").getD .null) id) :
      HasDefect limit depth (.object members) ["attribute", "category"] .categoryNotId
  | field {members leaf : Members} {category : Uuid} (hdepth : depth ≤ limit)
      (hleaf : members.get? "attribute" = some (.object leaf))
      (hcategory : SpellsId ((leaf.get? "category").getD .null) category)
      (hfield : ∀ field, ¬ SpellsField ((leaf.get? "value").getD .null) field) :
      HasDefect limit depth (.object members) ["attribute", "value"]
        (.invalidField ((leaf.get? "value").getD .null))
  | operator {members leaf : Members} {category : Uuid} {field : String} (hdepth : depth ≤ limit)
      (hleaf : members.get? "attribute" = some (.object leaf))
      (hcategory : SpellsId ((leaf.get? "category").getD .null) category)
      (hfield : SpellsField ((leaf.get? "value").getD .null) field)
      (hoperator : ∀ operator, ¬ SpellsOperator ((leaf.get? "operator").getD .null) operator) :
      HasDefect limit depth (.object members) ["attribute", "operator"]
        (.unknownOperator ((leaf.get? "operator").getD .null))
  | groupsNotList {members : Members} {found : Value} (hdepth : depth ≤ limit)
      (hleaf : members.get? "attribute" = none)
      (hgroups : members.get? "groups" = some found)
      (hlist : ∀ items, found ≠ .list items) :
      HasDefect limit depth (.object members) ["groups"] .groupsNotList
  | groupsNotIds {members : Members} {items : List Value} {item : Value} (hdepth : depth ≤ limit)
      (hleaf : members.get? "attribute" = none)
      (hgroups : members.get? "groups" = some (.list items))
      (hitem : item ∈ items) (hid : ∀ id, ¬ SpellsId item id) :
      HasDefect limit depth (.object members) ["groups"] .groupsNotIds
  | unrecognised {members : Members} (hdepth : depth ≤ limit)
      (hleaf : members.get? "attribute" = none)
      (hgroups : members.get? "groups" = none)
      (hother : ∀ name ∈ ["logic", "condition", "rules"], members.get? name = none) :
      HasDefect limit depth (.object members) [] .unrecognised
  | unknownLogic {members : Members} (hdepth : depth ≤ limit)
      (hleaf : members.get? "attribute" = none)
      (hgroups : members.get? "groups" = none)
      (hjoins : ∃ name ∈ ["logic", "condition", "rules"], ∃ value, members.get? name = some value)
      (hlogic : ∀ logic, ¬ SpellsLogic (joining members) logic) :
      HasDefect limit depth (.object members) [] (.unknownLogic (joining members))
  | missingRules {members : Members} {logic : Logic} (hdepth : depth ≤ limit)
      (hleaf : members.get? "attribute" = none)
      (hgroups : members.get? "groups" = none)
      (hlogic : SpellsLogic (joining members) logic)
      (hrules : members.get? "rules" = none) :
      HasDefect limit depth (.object members) [] .missingRules
  | rulesNotList {members : Members} {logic : Logic} {found : Value} (hdepth : depth ≤ limit)
      (hleaf : members.get? "attribute" = none)
      (hgroups : members.get? "groups" = none)
      (hlogic : SpellsLogic (joining members) logic)
      (hrules : members.get? "rules" = some found) (hlist : ∀ items, found ≠ .list items) :
      HasDefect limit depth (.object members) ["rules"] .rulesNotList

/-- A node that has a defect of its own. -/
def IsDefective (limit : Int) (depth : Nat) (node : Value) : Prop :=
  ∃ suffix defect, HasDefect limit depth node suffix defect

/-- The **first defect** of a document that is itself nested `depth` levels deep: the node at
the path has it, and no node at an earlier path has any. -/
structure FirstDefect (limit : Int) (depth : Nat) (document : Value) (path : List Nat)
    (suffix : List String) (defect : Defect) : Prop where
  /-- The node at the path has the defect. -/
  found : ∃ node, NodeAt document path node ∧
    HasDefect limit (depth + path.length) node suffix defect
  /-- No earlier node has any. -/
  first : ∀ earlier < path, ∀ node, NodeAt document earlier node →
    ¬ IsDefective limit (depth + earlier.length) node

/-! ### A defective node is reported -/

variable {limit : Int} {levels depth : Nat} {place : Place} {value node : Value} {tree : RuleTree}
  {members : Members} {path : List Nat} {suffix : List String} {defect : Defect} {error : RuleError}

/-- What reads nothing that a value could spell, reads nothing. -/
theorem eq_none_of_spells {α : Type} {read? : Option α} {Spells : α → Prop}
    (h : ∀ a, read? = some a ↔ Spells a) : read? = none ↔ ∀ a, ¬ Spells a := by
  rw [Option.eq_none_iff_forall_ne_some]
  exact forall_congr' fun a => not_congr (h a)

theorem idOf?_eq_none_iff : idOf? value = none ↔ ∀ id, ¬ SpellsId value id :=
  eq_none_of_spells fun _ => idOf?_eq_some_iff

theorem fieldOf?_eq_none_iff : fieldOf? value = none ↔ ∀ field, ¬ SpellsField value field :=
  eq_none_of_spells fun _ => fieldOf?_eq_some_iff

theorem operatorOf?_eq_none_iff :
    operatorOf? value = none ↔ ∀ operator, ¬ SpellsOperator value operator :=
  eq_none_of_spells fun _ => operatorOf?_eq_some_iff

theorem logicOf?_eq_none_iff : logicOf? value = none ↔ ∀ logic, ¬ SpellsLogic value logic :=
  eq_none_of_spells fun _ => logicOf?_eq_some_iff

theorem mapM_eq_none_iff {items : List Value} :
    items.mapM idOf? = none ↔ ∃ item ∈ items, ∀ id, ¬ SpellsId item id := by
  simp only [← idOf?_eq_none_iff]
  induction items with
  | nil => simp
  | cons item rest ih =>
    rw [List.mapM_cons, List.exists_mem_cons_iff, ← ih]
    rcases hid : idOf? item with _ | id
    · simp
    · rcases hids : rest.mapM idOf? with _ | ids <;> simp

/-- A node with a defect is reported with it, whatever its children are. -/
theorem readNode_of_hasDefect (hpositive : 0 < depth) (hlevels : levels + depth = limit.toNat + 1)
    (h : HasDefect limit depth value suffix defect) :
    readNode limit levels place value = .error ⟨defect, some (place ++ suffix.map .member)⟩ := by
  cases levels with
  | zero =>
    cases h with
    | tooDeep => simp [readNode, defectAt]
    | _ => omega
  | succ levels =>
    cases h with
    | tooDeep hdepth => omega
    | notObject _ hnode =>
      cases value with
      | object members => exact absurd rfl (hnode members)
      | _ => simp [readNode, defectAt]
    | @attributeNotObject _ leaf _ hleaf hobject =>
      rw [readNode, hleaf]
      cases leaf with
      | object members => exact absurd rfl (hobject members)
      | _ => simp [readCompare, defectAt]
    | category _ hleaf hcategory =>
      simp [readNode, hleaf, readCompare, member, idOf?_eq_none_iff.mpr hcategory, defectAt]
    | field _ hleaf hcategory hfield =>
      simp [readNode, hleaf, readCompare, member, idOf?_eq_some_iff.mpr hcategory,
        fieldOf?_eq_none_iff.mpr hfield, defectAt]
    | operator _ hleaf hcategory hfield hoperator =>
      simp [readNode, hleaf, readCompare, member, idOf?_eq_some_iff.mpr hcategory,
        fieldOf?_eq_some_iff.mpr hfield, operatorOf?_eq_none_iff.mpr hoperator, defectAt]
    | @groupsNotList _ found _ hleaf hgroups hlist =>
      rw [readNode, hleaf, hgroups]
      cases found with
      | list items => exact absurd rfl (hlist items)
      | _ => simp [readShare, defectAt]
    | groupsNotIds _ hleaf hgroups hitem hid =>
      simp [readNode, hleaf, hgroups, readShare, mapM_eq_none_iff.mpr ⟨_, hitem, hid⟩, defectAt]
    | unrecognised _ hleaf hgroups hother =>
      simp [readNode, hleaf, hgroups, isCombinator_eq_false_iff.mpr hother, defectAt]
    | unknownLogic _ hleaf hgroups hjoins hlogic =>
      simp [readNode, hleaf, hgroups, isCombinator_iff.mpr hjoins, readCombine, logicMember_eq,
        logicOf?_eq_none_iff.mpr hlogic, defectAt]
    | missingRules _ hleaf hgroups hlogic hrules =>
      simp [readNode, hleaf, hgroups, isCombinator_of_spellsLogic hlogic, readCombine,
        logicMember_eq, logicOf?_eq_some_iff.mpr hlogic, hrules, defectAt]
    | @rulesNotList _ _ found _ hleaf hgroups hlogic hrules hlist =>
      cases found with
      | list items => exact absurd rfl (hlist items)
      | _ =>
        simp [readNode, hleaf, hgroups, isCombinator_of_spellsLogic hlogic, readCombine,
          logicMember_eq, logicOf?_eq_some_iff.mpr hlogic, hrules, defectAt]

/-! ### A document in the grammar has no defect -/

/-- What stands at an index of a list that spells trees spells one of them. -/
theorem exists_spells {items : List Value} {parts : List RuleTree} {index : Nat} {item : Value}
    (h : List.Forall₂ Spells items parts) (hitem : items[index]? = some item) :
    ∃ part, Spells item part ∧ part.depth ≤ depthAll parts := by
  induction h generalizing index with
  | nil => simp at hitem
  | @cons first part rest parts hfirst _ ih =>
    cases index with
    | zero =>
      obtain rfl : first = item := by simpa using hitem
      exact ⟨part, hfirst, Nat.le_max_left ..⟩
    | succ index =>
      obtain ⟨part', hspells, hdepth⟩ := ih (by simpa using hitem)
      exact ⟨part', hspells, hdepth.trans (Nat.le_max_right ..)⟩

/-- **No node is defective** of a document that spells a tree with few enough levels. -/
theorem not_isDefective_of_spells (hnode : NodeAt value path node) (hpositive : 0 < depth)
    (hspells : Spells value tree) (hdepth : (depth + tree.depth : Int) ≤ limit + 1) :
    ¬ IsDefective limit (depth + path.length) node := by
  induction hnode generalizing depth tree with
  | here document =>
    rintro ⟨suffix, defect, hdefect⟩
    have hlevels : (limit.toNat + 1 - depth) + depth = limit.toNat + 1 := by omega
    have hok : readNode limit (limit.toNat + 1 - depth) [] document = .ok tree :=
      readNode_eq_ok_iff.mpr ⟨hspells, by omega⟩
    rw [readNode_of_hasDefect hpositive hlevels hdefect] at hok
    cases hok
  | child hleaf hgroups hrules hitem hnode ih =>
    cases hspells with
    | compare hleaf' => simp [hleaf] at hleaf'
    | share _ hgroups' => simp [hgroups] at hgroups'
    | combine _ _ _ hrules' hparts =>
      rw [hrules] at hrules'
      cases hrules'
      obtain ⟨part, hpart, hle⟩ := exists_spells hparts hitem
      have hchild : (↑(depth + 1) + part.depth : Int) ≤ limit + 1 := by
        rw [RuleTree.depth] at hdepth
        omega
      rw [List.length_cons, ← Nat.add_assoc, Nat.add_right_comm]
      exact ih (Nat.succ_pos depth) hpart hchild

/-! ### What is reported is the first defect -/

theorem hasDefect_of_readCompare {leaf : Value} (hdepth : depth ≤ limit)
    (hleaf : Members.get? members "attribute" = some leaf)
    (h : readCompare (place ++ [.member "attribute"]) leaf = .error error) :
    ∃ suffix, HasDefect limit depth (.object members) suffix error.defect ∧
      error.place = some (place ++ suffix.map .member) := by
  cases leaf with
  | object leaf =>
    rw [readCompare] at h
    split at h
    · next hcategory =>
      cases h
      exact ⟨_, .category hdepth hleaf (idOf?_eq_none_iff.mp hcategory), by simp⟩
    · next category hcategory =>
      have hcategory := idOf?_eq_some_iff.mp hcategory
      split at h
      · next hfield =>
        cases h
        exact ⟨_, .field hdepth hleaf hcategory (fieldOf?_eq_none_iff.mp hfield), by simp⟩
      · next field hfield =>
        have hfield := fieldOf?_eq_some_iff.mp hfield
        split at h
        · next hoperator =>
          cases h
          exact ⟨_, .operator hdepth hleaf hcategory hfield
            (operatorOf?_eq_none_iff.mp hoperator), by simp⟩
        · cases h
  | _ =>
    cases h
    exact ⟨_, .attributeNotObject hdepth hleaf (by simp), by simp⟩

theorem hasDefect_of_readShare {leaf : Value} (hdepth : depth ≤ limit)
    (hleaf : Members.get? members "attribute" = none)
    (hgroups : Members.get? members "groups" = some leaf)
    (h : readShare (place ++ [.member "groups"]) leaf = .error error) :
    ∃ suffix, HasDefect limit depth (.object members) suffix error.defect ∧
      error.place = some (place ++ suffix.map .member) := by
  cases leaf with
  | list items =>
    rw [readShare] at h
    split at h
    · cases h
    · next hids =>
      cases h
      obtain ⟨item, hitem, hid⟩ := mapM_eq_none_iff.mp hids
      exact ⟨_, .groupsNotIds hdepth hleaf hgroups hitem hid, by simp⟩
  | _ =>
    cases h
    exact ⟨_, .groupsNotList hdepth hleaf hgroups (by simp), by simp⟩

/-- Either an object that joins rules has a defect itself, or one of the rules does not
read. -/
theorem hasDefect_or_of_readCombine {read : Nat → Value → Except RuleError RuleTree}
    (hdepth : depth ≤ limit) (hleaf : Members.get? members "attribute" = none)
    (hgroups : Members.get? members "groups" = none) (hjoins : isCombinator members = true)
    (h : readCombine read place members = .error error) :
    (∃ suffix, HasDefect limit depth (.object members) suffix error.defect ∧
      error.place = some (place ++ suffix.map .member)) ∨
    ∃ items, Members.get? members "rules" = some (.list items) ∧
      readEach read 0 items = .error error := by
  rw [readCombine] at h
  split at h
  · next hlogic =>
    cases h
    exact .inl ⟨_, .unknownLogic hdepth hleaf hgroups (isCombinator_iff.mp hjoins)
      (logicOf?_eq_none_iff.mp hlogic), by simp⟩
  · next logic hlogic =>
    have hlogic := logicOf?_eq_some_iff.mp hlogic
    split at h
    · next hrules =>
      cases h
      exact .inl ⟨_, .missingRules hdepth hleaf hgroups hlogic hrules, by simp⟩
    · next items hrules => exact .inr ⟨items, hrules, Outcome.map_eq_error.mp h⟩
    · next found hlist hrules =>
      cases h
      exact .inl ⟨_, .rulesNotList hdepth hleaf hgroups hlogic hrules hlist, by simp⟩

/-- The first item that does not read stops the reading of a list. -/
theorem readEach_eq_error {α β ε : Type} {read : Nat → α → Except ε β} {items : List α}
    {index : Nat} {e : ε} (h : readEach read index items = .error e) :
    ∃ before item after, items = before ++ item :: after ∧
      read (index + before.length) item = .error e ∧
      ∃ results, readEach read index before = .ok results := by
  induction items generalizing index with
  | nil => cases h
  | cons first rest ih =>
    rw [readEach] at h
    split at h
    · next hfirst =>
      cases h
      exact ⟨[], first, rest, rfl, hfirst, [], rfl⟩
    · next result hfirst =>
      split at h
      · next hrest =>
        cases h
        obtain ⟨before, item, after, rfl, hitem, results, hbefore⟩ := ih hrest
        refine ⟨first :: before, item, after, rfl, ?_, result :: results, ?_⟩
        · rwa [List.length_cons, Nat.add_comm before.length, ← Nat.add_assoc]
        · rw [readEach, hfirst, hbefore]
      · cases h

theorem firstDefect_here (h : HasDefect limit depth value suffix defect) :
    FirstDefect limit depth value [] suffix defect where
  found := ⟨value, .here value, h⟩
  first := by
    intro earlier hearlier
    exact absurd hearlier (List.not_lt_nil earlier)

/-- The first defect of a rule is that of the object that joins it to others, if the object
has none itself and the rules before it spell trees. -/
theorem firstDefect_child {before after : List Value} {item : Value}
    (hleaf : Members.get? members "attribute" = none)
    (hgroups : Members.get? members "groups" = none)
    (hrules : Members.get? members "rules" = some (.list (before ++ item :: after)))
    (hhere : ¬ IsDefective limit depth (.object members))
    (hbefore : ∀ item ∈ before, ∃ tree, Spells item tree ∧
      (depth + 1 + tree.depth : Int) ≤ limit + 1)
    (h : FirstDefect limit (depth + 1) item path suffix defect) :
    FirstDefect limit depth (.object members) (before.length :: path) suffix defect where
  found := by
    obtain ⟨node, hnode, hdefect⟩ := h.found
    refine ⟨node, .child hleaf hgroups hrules (by simp) hnode, ?_⟩
    rwa [List.length_cons, ← Nat.add_assoc, Nat.add_right_comm]
  first := by
    intro earlier hearlier node hnode
    cases hnode with
    | here => exact hhere
    | @child _ items index found path' _ _ _ hrules' hitem hnode =>
      rw [hrules] at hrules'
      cases hrules'
      rw [List.length_cons, ← Nat.add_assoc, Nat.add_right_comm]
      rcases List.cons_lt_cons_iff.mp hearlier with hindex | ⟨rfl, hpath⟩
      · -- a node of a rule further left
        rw [List.getElem?_append_left hindex] at hitem
        obtain ⟨tree, hspells, hdepth⟩ := hbefore found (List.mem_of_getElem? hitem)
        exact not_isDefective_of_spells hnode (Nat.succ_pos depth) hspells hdepth
      · -- an earlier node of the same rule
        obtain rfl : item = found := by simpa using hitem
        exact h.first path' hpath node hnode

/-- **What is reported is the first defect.** -/
theorem exists_firstDefect (hpositive : 0 < depth) (hlevels : levels + depth = limit.toNat + 1)
    (h : readNode limit levels place value = .error error) :
    ∃ path suffix, FirstDefect limit depth value path suffix error.defect ∧
      error.place = some (place ++ path.map .child ++ suffix.map .member) := by
  induction levels generalizing depth place value with
  | zero =>
    cases h
    exact ⟨[], [], firstDefect_here (.tooDeep (by omega)), by simp⟩
  | succ levels ih =>
    have hdepth : depth ≤ limit := by omega
    have hhere : (∃ suffix, HasDefect limit depth value suffix error.defect ∧
        error.place = some (place ++ suffix.map .member)) →
        ∃ path suffix, FirstDefect limit depth value path suffix error.defect ∧
          error.place = some (place ++ path.map .child ++ suffix.map .member) := by
      rintro ⟨suffix, hdefect, hplace⟩
      exact ⟨[], suffix, firstDefect_here hdefect, by simpa using hplace⟩
    cases value with
    | object members =>
      have herror := h
      rw [readNode] at h
      split at h
      · next leaf hleaf => exact hhere (hasDefect_of_readCompare hdepth hleaf h)
      · next leaf hleaf hgroups => exact hhere (hasDefect_of_readShare hdepth hleaf hgroups h)
      · next hleaf hgroups =>
        split at h
        · next hjoins =>
          rcases hasDefect_or_of_readCombine hdepth hleaf hgroups hjoins h with
            h | ⟨items, hrules, h⟩
          · exact hhere h
          · obtain ⟨before, item, after, rfl, hitem, results, hbefore⟩ := readEach_eq_error h
            obtain ⟨path, suffix, hfirst, hplace⟩ := ih (Nat.succ_pos depth) (by omega) hitem
            refine ⟨before.length :: path, suffix, ?_, by simpa using hplace⟩
            refine firstDefect_child hleaf hgroups hrules ?_ ?_ hfirst
            · -- a defect of the object would have been reported at the object
              rintro ⟨suffix', defect, hdefect⟩
              rw [readNode_of_hasDefect hpositive hlevels hdefect] at herror
              cases herror
              cases suffix' <;> simp at hplace
            · obtain ⟨hparts, hle⟩ :=
                (readEach_eq_ok_iff_spells fun _ _ _ => readNode_eq_ok_iff).mp hbefore
              intro item hitem
              obtain ⟨index, hitem⟩ := List.mem_iff_getElem?.mp hitem
              obtain ⟨part, hspells, hpart⟩ := exists_spells hparts hitem
              exact ⟨part, hspells, by omega⟩
        · next hother =>
          cases h
          exact hhere ⟨[], .unrecognised hdepth hleaf hgroups
            (isCombinator_eq_false_iff.mp (by simpa using hother)), by simp⟩
    | _ =>
      cases h
      exact hhere ⟨[], .notObject hdepth (by simp), by simp⟩

theorem HasDefect.unique {suffix' : List String} {defect' : Defect} (hpositive : 0 < depth)
    (h : HasDefect limit depth node suffix defect)
    (h' : HasDefect limit depth node suffix' defect') : suffix = suffix' ∧ defect = defect' := by
  by_cases hdepth : depth ≤ limit
  · have hlevels : (limit.toNat + 1 - depth) + depth = limit.toNat + 1 := by omega
    have hread : readNode limit (limit.toNat + 1 - depth) [] node = _ :=
      readNode_of_hasDefect hpositive hlevels h
    rw [readNode_of_hasDefect hpositive hlevels h'] at hread
    have hinjective : Function.Injective PlaceStep.member := fun _ _ => PlaceStep.member.inj
    simpa [hinjective.list_map.eq_iff, and_comm, eq_comm] using hread
  · -- below the deepest level there is but one defect
    cases h with
    | tooDeep =>
      cases h' with
      | tooDeep => exact ⟨rfl, rfl⟩
      | _ => omega
    | _ => omega

theorem NodeAt.unique {node' : Value} (h : NodeAt value path node) (h' : NodeAt value path node') :
    node = node' := by
  induction h with
  | here => cases h'; rfl
  | child hleaf hgroups hrules hitem hnode ih =>
    cases h' with
    | child _ _ hrules' hitem' hnode' =>
      rw [hrules] at hrules'
      cases hrules'
      rw [hitem] at hitem'
      cases hitem'
      exact ih hnode'

/-- A document has at most one first defect. -/
theorem FirstDefect.unique {path' : List Nat} {suffix' : List String} {defect' : Defect}
    (hpositive : 0 < depth) (h : FirstDefect limit depth value path suffix defect)
    (h' : FirstDefect limit depth value path' suffix' defect') :
    path = path' ∧ suffix = suffix' ∧ defect = defect' := by
  obtain ⟨node, hnode, hdefect⟩ := h.found
  obtain ⟨node', hnode', hdefect'⟩ := h'.found
  rcases lt_trichotomy path path' with hlt | rfl | hlt
  · exact absurd ⟨_, _, hdefect⟩ (h'.first path hlt node hnode)
  · obtain rfl := hnode.unique hnode'
    exact ⟨rfl, hdefect.unique (Nat.add_pos_left hpositive _) hdefect'⟩
  · exact absurd ⟨_, _, hdefect'⟩ (h.first path' hlt node' hnode')

/-! ### The reader -/

/-- How the place of a defect is written: `.rules[i]` for each level, and then the members in
which it lies. -/
theorem text_place (path : List Nat) (suffix : List String) :
    Place.text (path.map .child ++ suffix.map .member) =
      "$" ++ String.join (path.map fun index => s!".rules[{index}]") ++
        String.join (suffix.map fun name => "." ++ name) := by
  simp [Place.text, List.map_append, List.map_map, Function.comp_def, PlaceStep.text,
    String.append_assoc]

/-- **Reading a stored rule.** The reader succeeds on the documents of the grammar whose trees
have no more levels than the limit, with the tree that the document spells. On any other
document it reports the first defect, at the node that has it and in the member in which it
lies. -/
theorem read_exact (limit : Int) (document : Value) :
    (∀ tree, read limit document = .ok tree ↔ Spells document tree ∧ (tree.depth : Int) ≤ limit) ∧
    ∀ error, read limit document = .error error ↔
      ∃ path suffix, FirstDefect limit 1 document path suffix error.defect ∧
        error.place = some (path.map .child ++ suffix.map .member) ∧
        error.placeText = some ("$" ++ String.join (path.map fun index => s!".rules[{index}]") ++
          String.join (suffix.map fun name => "." ++ name)) := by
  have hfirst : ∀ error, read limit document = .error error → ∃ path suffix,
      FirstDefect limit 1 document path suffix error.defect ∧
        error.place = some (path.map .child ++ suffix.map .member) := by
    intro error h
    obtain ⟨path, suffix, hfirst, hplace⟩ := exists_firstDefect Nat.one_pos rfl h
    exact ⟨path, suffix, hfirst, by simpa using hplace⟩
  refine ⟨fun tree => read_eq_ok_iff, fun error => ⟨fun h => ?_, ?_⟩⟩
  · obtain ⟨path, suffix, hdefect, hplace⟩ := hfirst error h
    refine ⟨path, suffix, hdefect, hplace, ?_⟩
    rw [RuleError.placeText, hplace, Option.map_some, text_place]
  · rintro ⟨path, suffix, hdefect, hplace, -⟩
    rcases hread : read limit document with error' | tree
    · -- the reader reports a first defect, and there is but one
      obtain ⟨path', suffix', hdefect', hplace'⟩ := hfirst error' hread
      obtain ⟨rfl, rfl, hsame⟩ := hdefect.unique Nat.one_pos hdefect'
      cases error
      cases error'
      simp_all
    · -- a document in the grammar has none
      obtain ⟨hspells, hdepth⟩ := readNode_eq_ok_iff.mp hread
      obtain ⟨node, hnode, hnodeDefect⟩ := hdefect.found
      have := depth_pos tree
      exact absurd ⟨_, _, hnodeDefect⟩
        (not_isDefective_of_spells hnode Nat.one_pos hspells (by omega))

/-- Of two defects the first is reported, although the second lies nearer to the root. -/
example :
    read 3 (.object [("logic", .text "AND"), ("rules", .list [
      .object [("condition", .text "or"), ("rules", .list [.object [("groups", .list [.null])]])],
      .null])]) =
      .error ⟨.groupsNotIds, some [.child 0, .child 0, .member "groups"]⟩ := by
  cbv

end Clearance.RuleTree
