import Clearance.Proofs.Identifier.Grammar
import Clearance.Proofs.Identifier.Sets
import Clearance.Proofs.Outcome
import Clearance.Proofs.Rule.Name
import Clearance.Proofs.Text.Letters
import Clearance.Rule.Reading

/-!
# The grammar of stored rules

A stored rule spells a tree (`Clearance.RuleTree.Spells`) when each of its nodes is an object
that has the members of its kind: an attribute leaf goes before a group leaf and a group leaf
before a combinator, and members that do not belong to a node may hold anything. The tree has
the shape of the document, node by node and in order. What stands in a leaf is told by what it
spells: an identifier however loosely, a field name, an operator in letters of any case. A group
leaf holds the identifiers that some item of its list spells, and no others.

The reader succeeds on just these documents, as far as the tree they spell has no more levels
than it is told (`Clearance.RuleTree.readNode_eq_ok_iff`). Depth is a property of the tree
alone, so the levels that the reader counts down need no counterpart in the grammar.
-/

namespace Clearance

open Text

/-! ### Names that may be written with capitals -/

theorem eq_toLower_iff {name word : String} (hname : name.toList.map Char.toLower = name.toList) :
    name = word.toLower ↔ SpelledAlike word.toList name.toList := by
  have hword : word.toLower.toList = word.toList.map Char.toLower := String.toList_map
  rw [← map_toLower_eq_iff, ← String.toList_inj, hword, hname, eq_comm]

/-- Every operator is found by its name, in letters of any case. -/
theorem Operator.ofName?_eq_some_iff {word : String} {operator : Operator} :
    ofName? word = some operator ↔ SpelledAlike word.toList operator.name.toList := by
  have hname : operator.name.toList.map Char.toLower = operator.name.toList := by
    cases operator <;> decide
  rw [← eq_toLower_iff hname]
  constructor
  · intro h
    simpa using List.find?_some h
  · intro h
    rw [ofName?, ← h]
    cases operator <;> rfl

/-- So is either way of joining. -/
theorem Logic.ofName?_eq_some_iff {word : String} {logic : Logic} :
    ofName? word = some logic ↔ SpelledAlike word.toList logic.name.toList := by
  have hname : logic.name.toList.map Char.toLower = logic.name.toList := by
    cases logic <;> decide
  rw [← eq_toLower_iff hname]
  constructor
  · intro h
    simpa using List.find?_some h
  · intro h
    rw [ofName?, ← h]
    cases logic <;> rfl

namespace RuleTree

/-! ### What stands in a leaf -/

/-- A value **spells an identifier**. -/
def SpellsId (value : Value) (id : Uuid) : Prop :=
  ∃ name, value = .text name ∧ id.LooselySpells name.toList

/-- A value **spells a field name**. -/
def SpellsField (value : Value) (field : String) : Prop :=
  value = .text field ∧ IsAdmitted field

/-- A value **spells an operator**, in letters of any case. -/
def SpellsOperator (value : Value) (operator : Operator) : Prop :=
  ∃ word, value = .text word ∧ SpelledAlike word.toList operator.name.toList

/-- A value **spells a way of joining**, in letters of any case. -/
def SpellsLogic (value : Value) (logic : Logic) : Prop :=
  ∃ word, value = .text word ∧ SpelledAlike word.toList logic.name.toList

variable {value : Value}

theorem idOf?_eq_some_iff {id : Uuid} : idOf? value = some id ↔ SpellsId value id := by
  cases value <;> simp [idOf?, SpellsId, Uuid.read?_eq_some_iff]

theorem spellsId_text {name : String} {id : Uuid} (h : Uuid.read? name = some id) :
    SpellsId (.text name) id :=
  ⟨name, rfl, Uuid.read?_eq_some_iff.mp h⟩

theorem operatorOf?_eq_some_iff {operator : Operator} :
    operatorOf? value = some operator ↔ SpellsOperator value operator := by
  cases value <;> simp [operatorOf?, SpellsOperator, Operator.ofName?_eq_some_iff]

theorem logicOf?_eq_some_iff {logic : Logic} :
    logicOf? value = some logic ↔ SpellsLogic value logic := by
  cases value <;> simp [logicOf?, SpellsLogic, Logic.ofName?_eq_some_iff]

theorem fieldOf?_eq_some_iff {field : String} :
    fieldOf? value = some field ↔ SpellsField value field := by
  cases value with
  | text name =>
    rw [fieldOf?, SpellsField, ← isFieldName_iff_isAdmitted, Option.ite_none_right_eq_some,
      Value.text.injEq, Option.some.injEq]
    constructor
    · rintro ⟨hname, rfl⟩
      exact ⟨rfl, hname⟩
    · rintro ⟨rfl, hname⟩
      exact ⟨hname, rfl⟩
  | _ => simp [fieldOf?, SpellsField]

/-! ### Trees -/

/-- What an object says about **how it joins** rules: its logic, and its condition only if it has
no logic. -/
def joining (members : Members) : Value :=
  (members.get? "logic").getD ((members.get? "condition").getD .null)

/-- A document **spells a tree**. A member that is missing counts as nothing. -/
inductive Spells : Value → RuleTree → Prop
  /-- An object with an attribute leaf. -/
  | compare {members leaf : Members} {category : Uuid} {field : String} {operator : Operator}
      (hleaf : members.get? "attribute" = some (.object leaf))
      (hcategory : SpellsId ((leaf.get? "category").getD .null) category)
      (hfield : SpellsField ((leaf.get? "value").getD .null) field)
      (hoperator : SpellsOperator ((leaf.get? "operator").getD .null) operator) :
      Spells (.object members) (compare category field operator)
  /-- An object with a list of groups, each of which is an identifier. The tree holds the
  identifiers that are listed, as a set: in ascending order, each once. -/
  | share {members : Members} {items : List Value} {ids : List Uuid}
      (hleaf : members.get? "attribute" = none)
      (hgroups : members.get? "groups" = some (.list items))
      (hitems : ∀ item ∈ items, ∃ id, SpellsId item id)
      (hids : ∀ id, id ∈ ids ↔ ∃ item ∈ items, SpellsId item id)
      (hset : ids.Pairwise (·.number < ·.number)) :
      Spells (.object members) (share ids)
  /-- An object that joins rules, each of which spells the part at its place. -/
  | combine {members : Members} {logic : Logic} {items : List Value} {parts : List RuleTree}
      (hleaf : members.get? "attribute" = none) (hgroups : members.get? "groups" = none)
      (hlogic : SpellsLogic (joining members) logic)
      (hrules : members.get? "rules" = some (.list items))
      (hparts : List.Forall₂ Spells items parts) :
      Spells (.object members) (combine logic parts)

theorem depth_pos (tree : RuleTree) : 0 < tree.depth := by
  cases tree <;> simp [depth]

/-- Parts that spell trees of at most so many levels. -/
theorem forall₂_spells_iff {items : List Value} {parts : List RuleTree} {levels : Nat} :
    List.Forall₂ (fun item part => Spells item part ∧ part.depth ≤ levels) items parts ↔
      List.Forall₂ Spells items parts ∧ depthAll parts ≤ levels := by
  induction items generalizing parts with
  | nil => cases parts <;> simp [depthAll]
  | cons item rest ih =>
    cases parts with
    | nil => simp
    | cons part parts =>
      simp only [List.forall₂_cons, ih, depthAll, Nat.max_le]
      exact and_and_and_comm

/-! ### Reading -/

variable {limit : Int} {place : Place} {tree : RuleTree} {members : Members}

theorem readCompare_eq_ok_iff :
    readCompare place value = .ok tree ↔ ∃ leaf category field operator, value = .object leaf ∧
      SpellsId ((Members.get? leaf "category").getD .null) category ∧
      SpellsField ((Members.get? leaf "value").getD .null) field ∧
      SpellsOperator ((Members.get? leaf "operator").getD .null) operator ∧
      compare category field operator = tree := by
  simp only [← idOf?_eq_some_iff, ← fieldOf?_eq_some_iff, ← operatorOf?_eq_some_iff]
  cases value with
  | object leaf =>
    simp only [readCompare, member]
    rcases hcategory : idOf? ((Members.get? leaf "category").getD .null) with _ | category
    · simp [defectAt, hcategory]
    rcases hfield : fieldOf? ((Members.get? leaf "value").getD .null) with _ | field
    · simp [defectAt, hfield]
    rcases hoperator : operatorOf? ((Members.get? leaf "operator").getD .null) with _ | operator
    · simp [defectAt, hoperator]
    simp [hcategory, hfield, hoperator]
  | _ => simp [readCompare, defectAt]

theorem mapM_eq_some_iff {items : List Value} {ids : List Uuid} :
    items.mapM idOf? = some ids ↔ List.Forall₂ SpellsId items ids := by
  induction items generalizing ids with
  | nil => simp [eq_comm]
  | cons item rest ih =>
    rw [List.mapM_cons, List.forall₂_cons_left_iff]
    simp only [Option.bind_eq_bind, Option.bind_eq_some_iff, idOf?_eq_some_iff, ih]
    simp [eq_comm]

/-- A value that spells an identifier spells no other. -/
theorem SpellsId.unique {id other : Uuid} (h : SpellsId value id) (h' : SpellsId value other) :
    id = other :=
  Option.some.inj ((idOf?_eq_some_iff.mpr h).symm.trans (idOf?_eq_some_iff.mpr h'))

/-- Identifiers that some items spell one by one are those that an item spells. -/
theorem mem_iff_of_forall₂ {items : List Value} {ids : List Uuid}
    (h : List.Forall₂ SpellsId items ids) {id : Uuid} :
    id ∈ ids ↔ ∃ item ∈ items, SpellsId item id := by
  induction h with
  | nil => simp
  | @cons item found items ids hfound _ ih =>
    have hitem : SpellsId item id ↔ id = found :=
      ⟨fun h => h.unique hfound, fun h => h ▸ hfound⟩
    rw [List.mem_cons, List.exists_mem_cons_iff, ih, hitem]

theorem exists_forall₂_iff {items : List Value} :
    (∃ ids, List.Forall₂ SpellsId items ids) ↔ ∀ item ∈ items, ∃ id, SpellsId item id := by
  induction items with
  | nil => simp
  | cons item rest ih =>
    rw [List.forall_mem_cons, ← ih]
    simp only [List.forall₂_cons_left_iff]
    grind

/-- **A list of groups** is read as the set of the identifiers that its items spell. -/
theorem readShare_eq_ok_iff :
    readShare place value = .ok tree ↔ ∃ items ids, value = .list items ∧
      (∀ item ∈ items, ∃ id, SpellsId item id) ∧
      (∀ id, id ∈ ids ↔ ∃ item ∈ items, SpellsId item id) ∧
      ids.Pairwise (·.number < ·.number) ∧ share ids = tree := by
  cases value with
  | list items =>
    rw [readShare]
    constructor
    · intro h
      split at h
      · next found hfound =>
        obtain rfl := Except.ok.inj h
        have hspelled := mapM_eq_some_iff.mp hfound
        exact ⟨items, _, rfl, exists_forall₂_iff.mp ⟨found, hspelled⟩,
          fun id => Uuid.mem_setOf.trans (mem_iff_of_forall₂ hspelled), Uuid.pairwise_setOf found,
          rfl⟩
      · simp [defectAt] at h
    · rintro ⟨_, ids, ⟨⟩, hitems, hids, hset, rfl⟩
      obtain ⟨found, hspelled⟩ := exists_forall₂_iff.mpr hitems
      -- there is but one list of the identifiers in ascending order
      have hsame : Uuid.setOf found = ids :=
        Uuid.eq_of_pairwise (Uuid.pairwise_setOf found) hset fun id =>
          (Uuid.mem_setOf.trans (mem_iff_of_forall₂ hspelled)).trans (hids id).symm
      rw [mapM_eq_some_iff.mpr hspelled, ← hsame]
  | _ => simp [readShare, defectAt]

/-- A list whose items spell identifiers one by one spells the set of them. -/
theorem spells_share {items : List Value} {ids : List Uuid}
    (hleaf : members.get? "attribute" = none) (hgroups : members.get? "groups" = some (.list items))
    (hids : List.Forall₂ SpellsId items ids) :
    Spells (.object members) (share (Uuid.setOf ids)) :=
  .share hleaf hgroups (exists_forall₂_iff.mp ⟨ids, hids⟩)
    (fun _ => Uuid.mem_setOf.trans (mem_iff_of_forall₂ hids)) (Uuid.pairwise_setOf ids)

/-- Items that are read one by one give what each of them gives. -/
theorem readEach_eq_ok_iff {α β ε : Type} {read : Nat → α → Except ε β} (gives : α → β → Prop)
    (hread : ∀ index item result, read index item = .ok result ↔ gives item result)
    {items : List α} {index : Nat} {results : List β} :
    readEach read index items = .ok results ↔ List.Forall₂ gives items results := by
  induction items generalizing index results with
  | nil => simp [readEach, eq_comm]
  | cons item rest ih =>
    have hrest : ∀ results, readEach read (index + 1) rest = .ok results ↔
        List.Forall₂ gives rest results := fun _ => ih
    rw [readEach, List.forall₂_cons_left_iff]
    simp only [← hread index, ← hrest]
    rcases read index item with _ | result
    · simp
    rcases readEach read (index + 1) rest with _ | results
    · simp
    simp [eq_comm]

theorem readEach_eq_ok_iff_spells {read : Nat → Value → Except RuleError RuleTree} {levels : Nat}
    (hread : ∀ index item tree, read index item = .ok tree ↔ Spells item tree ∧ tree.depth ≤ levels)
    {items : List Value} {index : Nat} {parts : List RuleTree} :
    readEach read index items = .ok parts ↔
      List.Forall₂ Spells items parts ∧ depthAll parts ≤ levels := by
  rw [readEach_eq_ok_iff _ hread, forall₂_spells_iff]

/-- The reader looks for it in the same places. -/
theorem logicMember_eq (members : Members) : logicMember members = joining members := rfl

theorem readCombine_eq_ok_iff {read : Nat → Value → Except RuleError RuleTree} :
    readCombine read place members = .ok tree ↔ ∃ logic items parts,
      SpellsLogic (joining members) logic ∧
      members.get? "rules" = some (.list items) ∧ readEach read 0 items = .ok parts ∧
      combine logic parts = tree := by
  simp only [← logicOf?_eq_some_iff]
  rw [readCombine, logicMember_eq]
  rcases hlogic : logicOf? (joining members) with _ | logic
  · simp [defectAt]
  rcases hrules : Members.get? members "rules" with _ | rules
  · simp [defectAt]
  cases rules <;> simp [defectAt, Outcome.map_eq_ok]

theorem has_iff {name : String} :
    members.has name = true ↔ ∃ value, members.get? name = some value := by
  rw [Members.has, Members.get?, ← Option.isSome_iff_exists, List.lookup_isSome_iff,
    List.any_eq_true]
  exact exists_congr fun entry => and_congr_right fun _ => by rw [beq_iff_eq, beq_iff_eq, eq_comm]

/-- What makes an object a combinator is a member of one of three names. -/
theorem isCombinator_iff : isCombinator members = true ↔
    ∃ name ∈ ["logic", "condition", "rules"], ∃ value, members.get? name = some value := by
  simp [isCombinator, has_iff, or_assoc]

theorem isCombinator_eq_false_iff : isCombinator members = false ↔
    ∀ name ∈ ["logic", "condition", "rules"], members.get? name = none := by
  rw [← Bool.not_eq_true, isCombinator_iff]
  push Not
  exact forall₂_congr fun name _ => Option.eq_none_iff_forall_ne_some.symm

/-- An object that says how it joins is a combinator. -/
theorem isCombinator_of_spellsLogic {logic : Logic}
    (h : SpellsLogic (joining members) logic) :
    isCombinator members = true := by
  obtain ⟨word, hword, -⟩ := h
  rw [isCombinator_iff]
  rcases hlogic : members.get? "logic" with _ | value
  · rcases hcondition : members.get? "condition" with _ | value
    · rw [joining, hlogic, hcondition] at hword
      exact Value.noConfusion hword
    · exact ⟨"condition", by simp, value, hcondition⟩
  · exact ⟨"logic", by simp, value, hlogic⟩

/-- **The reader and the grammar.** What is read at a place is the tree that the document
spells, as far as it has no more than the levels that are left. -/
theorem readNode_eq_ok_iff {levels : Nat} :
    readNode limit levels place value = .ok tree ↔ Spells value tree ∧ tree.depth ≤ levels := by
  induction levels generalizing place value tree with
  | zero =>
    have hdepth := depth_pos tree
    constructor
    · intro h
      simp [readNode, defectAt] at h
    · rintro ⟨-, h⟩
      omega
  | succ levels ih =>
    cases value with
    | object members =>
      constructor
      · intro h
        rw [readNode] at h
        split at h
        · next leaf hleaf =>
          obtain ⟨leaf, _, _, _, rfl, hcategory, hfield, hoperator, rfl⟩ :=
            readCompare_eq_ok_iff.mp h
          exact ⟨.compare hleaf hcategory hfield hoperator, Nat.succ_le_succ (Nat.zero_le _)⟩
        · next leaf hleaf hgroups =>
          obtain ⟨items, ids, rfl, hitems, hids, hset, rfl⟩ := readShare_eq_ok_iff.mp h
          exact ⟨.share hleaf hgroups hitems hids hset, Nat.succ_le_succ (Nat.zero_le _)⟩
        · next hleaf hgroups =>
          split at h
          · obtain ⟨logic, items, parts, hlogic, hrules, hparts, rfl⟩ :=
              readCombine_eq_ok_iff.mp h
            obtain ⟨hparts, hdepth⟩ := (readEach_eq_ok_iff_spells fun _ _ _ => ih).mp hparts
            exact ⟨.combine hleaf hgroups hlogic hrules hparts, Nat.succ_le_succ hdepth⟩
          · simp [defectAt] at h
      · rintro ⟨hspells, hdepth⟩
        rw [readNode]
        cases hspells with
        | compare hleaf hcategory hfield hoperator =>
          rw [hleaf]
          exact readCompare_eq_ok_iff.mpr
            ⟨_, _, _, _, rfl, hcategory, hfield, hoperator, rfl⟩
        | share hleaf hgroups hitems hids hset =>
          rw [hleaf, hgroups]
          exact readShare_eq_ok_iff.mpr ⟨_, _, rfl, hitems, hids, hset, rfl⟩
        | combine hleaf hgroups hlogic hrules hparts =>
          simp only [hleaf, hgroups, isCombinator_of_spellsLogic hlogic, if_true]
          refine readCombine_eq_ok_iff.mpr ⟨_, _, _, hlogic, hrules, ?_, rfl⟩
          exact (readEach_eq_ok_iff_spells fun _ _ _ => ih).mpr
            ⟨hparts, Nat.le_of_succ_le_succ hdepth⟩
    | _ =>
      constructor
      · intro h
        simp [readNode, defectAt] at h
      · rintro ⟨⟨⟩, -⟩

/-- The whole of a document is read if it spells a tree with no more levels than the limit. -/
theorem read_eq_ok_iff :
    read limit value = .ok tree ↔ Spells value tree ∧ (tree.depth : Int) ≤ limit := by
  rw [read, readNode_eq_ok_iff]
  have hdepth := depth_pos tree
  exact and_congr_right fun _ => by omega

end RuleTree

end Clearance
