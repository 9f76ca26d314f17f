import Clearance.Proofs.Rule.Defect

/-!
# How deep a rule goes

A reader is told how many levels a rule may have, and so is whoever reads again what has been
read. The two count levels in different places: one on its way down a document, the other on
its way down a tree. On a document that spells a tree they do the same, step by step
(`Clearance.RuleTree.readNode_eq_boundedNode`), and what they do depends on nothing but the
shape of the tree.

With enough levels for the depth of the tree both give the tree. With fewer, both stop at the
first node that lies one level too deep, in the order in which a reader comes to the nodes
(`Clearance.RuleTree.IsFirstAt`), and report its path (`Clearance.RuleTree.read_again`).
-/

namespace Clearance.RuleTree

/-! ### Nodes of a tree -/

/-- The **node** of a tree at a path of indices. -/
inductive PartAt : RuleTree → List Nat → RuleTree → Prop
  /-- The tree itself. -/
  | here (tree : RuleTree) : PartAt tree [] tree
  /-- A node of a part. -/
  | child {logic : Logic} {parts : List RuleTree} {index : Nat} {part node : RuleTree}
      {path : List Nat} (hpart : parts[index]? = some part) (hnode : PartAt part path node) :
      PartAt (combine logic parts) (index :: path) node

/-- The path of the **first node at a depth**: it is that of a node, and no node at an earlier
path lies as deep. A node is one level deeper than its path is long. -/
structure IsFirstAt (depth : Nat) (tree : RuleTree) (path : List Nat) : Prop where
  /-- The path is that of a node. -/
  found : ∃ node, PartAt tree path node
  /-- The node lies at the depth. -/
  deep : path.length + 1 = depth
  /-- No earlier node does. -/
  first : ∀ earlier < path, ∀ node, PartAt tree earlier node → earlier.length + 1 ≠ depth

variable {limit : Int} {levels index : Nat} {place : Place} {document : Value}
  {tree part node : RuleTree} {parts : List RuleTree} {logic : Logic} {path : List Nat}

theorem depth_le_depthAll (h : part ∈ parts) : part.depth ≤ depthAll parts := by
  induction parts with
  | nil => cases h
  | cons first rest ih =>
    rw [depthAll]
    rcases List.mem_cons.mp h with rfl | hrest
    · exact Nat.le_max_left ..
    · exact (ih hrest).trans (Nat.le_max_right ..)

/-- A node lies within the depth of its tree. -/
theorem PartAt.length_add_depth_le (h : PartAt tree path node) :
    path.length + node.depth ≤ tree.depth := by
  induction h with
  | here => simp
  | child hpart _ ih =>
    have hle := depth_le_depthAll (List.mem_of_getElem? hpart)
    rw [List.length_cons, depth]
    omega

/-- What stands at an index of the trees that a list spells is spelled at the same index. -/
theorem exists_item {items : List Value} (h : List.Forall₂ Spells items parts)
    (hpart : parts[index]? = some part) : ∃ item, items[index]? = some item ∧ Spells item part := by
  obtain ⟨hindex, rfl⟩ := List.getElem?_eq_some_iff.mp hpart
  have hitems : index < items.length := by rwa [h.length_eq]
  exact ⟨items[index], List.getElem?_eq_getElem hitems, h.get hitems hindex⟩

/-- The nodes of a tree are where those of a document are that spells it. -/
theorem PartAt.exists_nodeAt (h : PartAt tree path node) (hspells : Spells document tree) :
    ∃ found, NodeAt document path found ∧ Spells found node := by
  induction h generalizing document with
  | here => exact ⟨document, .here document, hspells⟩
  | child hpart _ ih =>
    cases hspells with
    | combine hleaf hgroups _ hrules hparts =>
      obtain ⟨item, hitem, hspells⟩ := exists_item hparts hpart
      obtain ⟨found, hfound, hnode⟩ := ih hspells
      exact ⟨found, .child hleaf hgroups hrules hitem hfound, hnode⟩

/-! ### Counting levels -/

/-- Two readers that agree on each item and what it spells agree on lists of them. -/
theorem readEach_congr {α β γ ε : Type} {relates : α → β → Prop} {read : Nat → α → Except ε γ}
    {readOther : Nat → β → Except ε γ} {items : List α} {others : List β}
    (h : List.Forall₂ relates items others)
    (hread : ∀ index item other, relates item other → read index item = readOther index other) :
    readEach read index items = readEach readOther index others := by
  induction h generalizing index with
  | nil => rfl
  | cons hitem _ ih => rw [readEach, readEach, hread index _ _ hitem, ih]

/-- **Both count alike.** On a document that spells a tree, reading the document is counting the
levels of the tree. -/
theorem readNode_eq_boundedNode (h : Spells document tree) :
    readNode limit levels place document = boundedNode limit levels place tree := by
  induction levels generalizing place document tree with
  | zero => rw [readNode, boundedNode]
  | succ levels ih =>
    cases h with
    | compare hleaf hcategory hfield hoperator =>
      rw [readNode, hleaf, boundedNode]
      · exact readCompare_eq_ok_iff.mpr ⟨_, _, _, _, rfl, hcategory, hfield, hoperator, rfl⟩
      · simp
    | share hleaf hgroups hitems hids hset =>
      rw [readNode, hleaf, hgroups, boundedNode]
      · exact readShare_eq_ok_iff.mpr ⟨_, _, rfl, hitems, hids, hset, rfl⟩
      · simp
    | combine hleaf hgroups hlogic hrules hparts =>
      simp only [readNode, hleaf, hgroups, isCombinator_of_spellsLogic hlogic, if_true, readCombine,
        logicMember_eq, logicOf?_eq_some_iff.mpr hlogic, hrules, boundedNode]
      exact congrArg _ (readEach_congr hparts fun _ _ _ hspells => ih hspells)

theorem readEach_eq_self {α ε : Type} {read : Nat → α → Except ε α} {items : List α}
    (h : ∀ index, ∀ item ∈ items, read index item = .ok item) :
    readEach read index items = .ok items := by
  induction items generalizing index with
  | nil => rfl
  | cons item rest ih =>
    rw [readEach, h index item List.mem_cons_self,
      ih fun index other hother => h index other (List.mem_cons_of_mem item hother)]

/-- The first item that fails decides about a list. -/
theorem readEach_append_eq_error {α ε : Type} {read : Nat → α → Except ε α}
    {before after : List α} {item : α} {e : ε}
    (hbefore : ∀ index, ∀ other ∈ before, read index other = .ok other)
    (hitem : read (index + before.length) item = .error e) :
    readEach read index (before ++ item :: after) = .error e := by
  induction before generalizing index with
  | nil => rw [List.nil_append, readEach, show read index item = .error e from hitem]
  | cons first rest ih =>
    have hrest : readEach read (index + 1) (rest ++ item :: after) = .error e := by
      refine ih (fun index other hother => hbefore index other (List.mem_cons_of_mem _ hother)) ?_
      rwa [Nat.add_assoc, Nat.add_comm 1]
    rw [List.cons_append, readEach, hbefore index first List.mem_cons_self, hrest]

/-- With enough levels a tree is given back as it is. -/
theorem boundedNode_of_depth_le (h : tree.depth ≤ levels) :
    boundedNode limit levels place tree = .ok tree := by
  induction levels generalizing place tree with
  | zero =>
    have := depth_pos tree
    omega
  | succ levels ih =>
    cases tree with
    | combine logic parts =>
      have hparts : depthAll parts ≤ levels := by
        rw [depth] at h
        omega
      rw [boundedNode, readEach_eq_self fun index part hpart =>
        ih ((depth_le_depthAll hpart).trans hparts)]
      rfl
    | compare | share => rfl

/-- Of trees that together go deeper than some levels, one is the first that does. -/
theorem exists_first_deeper (h : levels < depthAll parts) : ∃ before part after,
    parts = before ++ part :: after ∧ (∀ other ∈ before, other.depth ≤ levels) ∧
      levels < part.depth := by
  induction parts with
  | nil => cases h
  | cons first rest ih =>
    by_cases hfirst : levels < first.depth
    · exact ⟨[], first, rest, rfl, by simp, hfirst⟩
    · have hrest : levels < depthAll rest := by
        rw [depthAll] at h
        omega
      obtain ⟨before, part, after, rfl, hbefore, hpart⟩ := ih hrest
      exact ⟨first :: before, part, after, rfl,
        List.forall_mem_cons.mpr ⟨Nat.le_of_not_lt hfirst, hbefore⟩, hpart⟩

/-- The first node at a depth lies in the first part that goes so deep. -/
theorem IsFirstAt.child {before after : List RuleTree} {depth : Nat}
    (hbefore : ∀ other ∈ before, other.depth < depth) (hpositive : 0 < depth)
    (h : IsFirstAt depth part path) :
    IsFirstAt (depth + 1) (combine logic (before ++ part :: after)) (before.length :: path) where
  found := by
    obtain ⟨node, hnode⟩ := h.found
    exact ⟨node, .child (by simp) hnode⟩
  deep := by rw [List.length_cons, h.deep]
  first := by
    intro earlier hearlier node hnode
    cases hnode with
    | here => simpa using hpositive.ne'
    | @child _ _ index found _ path' hpart hnode =>
      rw [List.length_cons, ne_eq, Nat.add_right_cancel_iff]
      rcases List.cons_lt_cons_iff.mp hearlier with hindex | ⟨rfl, hpath⟩
      · -- a node of a part further left, where none lies so deep
        rw [List.getElem?_append_left hindex] at hpart
        have hshallow := hbefore found (List.mem_of_getElem? hpart)
        have hwithin := hnode.length_add_depth_le
        have := depth_pos node
        omega
      · obtain rfl : part = found := by simpa using hpart
        exact h.first path' hpath node hnode

/-- **With too few levels** the first node that lies one level too deep is reported. -/
theorem exists_isFirstAt (limit : Int) (place : Place) (h : levels < tree.depth) :
    ∃ path, IsFirstAt (levels + 1) tree path ∧
      boundedNode limit levels place tree =
        .error ⟨.tooDeep limit, some (place ++ path.map .child)⟩ := by
  induction levels generalizing place tree with
  | zero =>
    refine ⟨[], ⟨⟨tree, .here tree⟩, rfl, fun earlier hearlier => ?_⟩, ?_⟩
    · exact absurd hearlier (List.not_lt_nil earlier)
    · simp [boundedNode, defectAt]
  | succ levels ih =>
    cases tree with
    | combine logic parts =>
      rw [depth, Nat.add_lt_add_iff_right] at h
      obtain ⟨before, part, after, rfl, hbefore, hpart⟩ := exists_first_deeper h
      obtain ⟨path, hfirst, herror⟩ := ih (place ++ [.child before.length]) hpart
      refine ⟨before.length :: path, ?_, ?_⟩
      · exact hfirst.child (fun other hother => Nat.lt_succ_of_le (hbefore other hother))
          (Nat.succ_pos levels)
      · have hparts : readEach (fun index => boundedNode limit levels (place ++ [.child index])) 0
            (before ++ part :: after) = .error
              ⟨.tooDeep limit, some (place ++ [.child before.length] ++ path.map .child)⟩ := by
          refine readEach_append_eq_error
            (fun index other hother => boundedNode_of_depth_le (hbefore other hother)) ?_
          rwa [Nat.zero_add]
        rw [boundedNode, hparts]
        simp [Except.map]
    | compare | share =>
      rw [depth] at h
      omega

/-! ### Reading again -/

/-- **Reading again.** What has been read with some limit has no more levels than that. With
any other limit that its depth keeps to, the document and the tree give the same tree. With any
that it exceeds, both are refused in the same words and at the same place, that of the first
node one level below the limit; a limit below zero is taken for zero there, so that it is the
root which lies too deep. -/
theorem read_again {allowed : Int} (h : read allowed document = .ok tree) :
    (tree.depth : Int) ≤ allowed ∧ ∀ limit : Int,
      ((tree.depth : Int) ≤ limit →
        read limit document = .ok tree ∧ bounded limit tree = .ok tree) ∧
      (limit < tree.depth → ∃ path error,
        IsFirstAt (limit.toNat + 1) tree path ∧ (∃ node, NodeAt document path node) ∧
        read limit document = .error error ∧ bounded limit tree = .error error ∧
        error.defect.message = s!"rule tree deeper than {limit} levels" ∧
        error.place = some (path.map .child) ∧
        error.placeText =
          some ("$" ++ String.join (path.map fun index => s!".rules[{index}]"))) := by
  obtain ⟨hspells, hallowed⟩ := read_eq_ok_iff.mp h
  refine ⟨hallowed, fun limit => ?_⟩
  have hsame : read limit document = bounded limit tree := readNode_eq_boundedNode hspells
  have hpositive := depth_pos tree
  refine ⟨fun hdepth => ?_, fun hdepth => ?_⟩
  · have hbounded : bounded limit tree = .ok tree := boundedNode_of_depth_le (by omega)
    exact ⟨hsame.trans hbounded, hbounded⟩
  · have hlevels : limit.toNat < tree.depth := by omega
    obtain ⟨path, hfirst, hbounded⟩ := exists_isFirstAt limit [] hlevels
    obtain ⟨node, hnode⟩ := hfirst.found
    obtain ⟨found, hfound, -⟩ := hnode.exists_nodeAt hspells
    refine ⟨path, _, hfirst, ⟨found, hfound⟩, hsame.trans hbounded, hbounded, rfl, rfl, ?_⟩
    simpa [RuleError.placeText] using text_place path []

/-- A rule of three levels, the second part of which goes deeper than the first. -/
def unevenRule : Value :=
  .object [("logic", .text "OR"), ("rules", .list [
    .object [("groups", .list [])],
    .object [("condition", .text "and"), ("rules", .list [.object [("groups", .list [])]])]])]

/-- The tree that the rule spells. -/
def unevenTree : RuleTree :=
  combine .or [share [], combine .and [share []]]

theorem spells_unevenRule : Spells unevenRule unevenTree := by
  have hleaf : Spells (.object [("groups", .list [])]) (share []) := spells_share rfl rfl .nil
  have hpart : Spells (.object [("condition", .text "and"),
      ("rules", .list [.object [("groups", .list [])]])]) (combine .and [share []]) :=
    .combine rfl rfl ⟨_, rfl, Text.map_toLower_eq_iff.mp rfl⟩ rfl (.cons hleaf .nil)
  exact .combine rfl rfl ⟨_, rfl, Text.map_toLower_eq_iff.mp rfl⟩ rfl
    (.cons hleaf (.cons hpart .nil))

/-- Three levels are enough for it, and with two the only part of its second part is reported,
however it is read. -/
theorem read_again_unevenRule :
    read 32 unevenRule = .ok unevenTree ∧ read 3 unevenRule = .ok unevenTree ∧
      IsFirstAt 3 unevenTree [1, 0] ∧
      bounded 2 unevenTree = .error ⟨.tooDeep 2, some [.child 1, .child 0]⟩ := by
  have hread : read 32 unevenRule = .ok unevenTree :=
    read_eq_ok_iff.mpr ⟨spells_unevenRule, by decide⟩
  obtain ⟨-, hagain⟩ := read_again hread
  obtain ⟨path, error, hfirst, -, -, hbounded, -, hplace, -⟩ := (hagain 2).2 (by decide)
  have hreported : bounded 2 unevenTree = .error ⟨.tooDeep 2, some [.child 1, .child 0]⟩ := rfl
  obtain rfl := Except.error.inj (hbounded.symm.trans hreported)
  obtain rfl : path = [1, 0] := by simpa [List.map_eq_cons_iff, eq_comm] using hplace
  exact ⟨hread, ((hagain 3).1 (by decide)).1, hfirst, hbounded⟩

end Clearance.RuleTree
