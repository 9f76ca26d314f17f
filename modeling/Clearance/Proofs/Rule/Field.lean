import Clearance.Proofs.Document.Lookup
import Clearance.Proofs.Identifier.Text
import Clearance.Proofs.Rule.Depth
import Clearance.Rule.Compile

/-!
# Field names in rules

The fields that rules name go between quotes into the paths by which a store looks fields up, as
they are. So they must not hold a quote or anything else that would change the path. The fields at
all the nodes of a rule that has been read are admitted, which are the plain names and those with a
line feed behind them, and the conditions that rules are compiled to look at the fields of their
leaves only (`Clearance.RuleTree.fields_of_read`).

No admitted field changes the path. But under one with a line feed a store finds nothing, whatever
the data holds there (`Clearance.RuleTree.member?_of_not_isPlainName`).
-/

namespace Clearance

/-! ### Conditions -/

/-- A condition that **tests a field** of the data, in whatever part of it. -/
inductive Condition.Tests (field : String) : Condition → Prop
  /-- A leaf that looks the field up. -/
  | here (operator : Operator) (values : List String) :
      Tests field (.dataField field operator values)
  /-- A part of a conjunction. -/
  | allOf {parts : List Condition} {part : Condition} (hpart : part ∈ parts)
      (h : Tests field part) : Tests field (.allOf parts)
  /-- A part of a disjunction. -/
  | anyOf {parts : List Condition} {part : Condition} (hpart : part ∈ parts)
      (h : Tests field part) : Tests field (.anyOf parts)
  /-- A condition that is negated. -/
  | not {part : Condition} (h : Tests field part) : Tests field (.not part)

namespace RuleTree

variable {limit : Int} {document : Value} {tree part node : RuleTree} {parts : List RuleTree}
  {path : List Nat} {category : Uuid} {name field : String} {operator : Operator}
  {principal : Principal} {c : Char}

/-! ### Looking up -/

/-- An admitted field is looked up by one step to a member with that label, -/
theorem ofField_of_isAdmitted (h : IsAdmitted field) :
    Path.ofField field = .member field.toList .finish :=
  Path.ofField_of_unquoted fun c hc =>
    (unquoted_of_isFieldName (isFieldName_iff_isAdmitted.mpr h) c hc).1

/-- where a store finds what the document holds if the name is plain, -/
theorem member?_of_isPlainName (h : IsPlainName field) (data : Value) :
    Filter.member? data field = data.get? field := by
  refine Filter.member?_of_isPlain (isPlain_of_isFieldName
    (isFieldName_iff_isAdmitted.mpr (.inl h)) fun hfeed => ?_) data
  exact absurd (isFieldChar_iff.mpr (h.chars _ (List.mem_of_getLast? hfeed))) (by decide)

/-- and nothing if not. -/
theorem member?_of_not_isPlainName (h : IsAdmitted field) (hnot : ¬ IsPlainName field)
    (data : Value) : Filter.member? data field = none := by
  refine Filter.member?_of_lineFeed (isFieldName_iff_isAdmitted.mpr h) ?_ data
  obtain ⟨name, -, rfl⟩ := h.resolve_left hnot
  simp

/-! ### The fields of a rule -/

/-- The fields of a rule that has been read are admitted, at every node. -/
theorem PartAt.isAdmitted (hspells : Spells document tree)
    (h : PartAt tree path (compare category field operator)) : IsAdmitted field := by
  obtain ⟨found, -, hfound⟩ := h.exists_nodeAt hspells
  cases hfound with
  | compare _ _ hfield _ => exact hfield.2

/-- Every admitted field is read. -/
theorem read_of_isAdmitted (hlimit : 1 ≤ limit) (hfield : IsAdmitted field) {id word : Value}
    (hid : SpellsId id category) (hword : SpellsOperator word operator) :
    read limit (.object [("attribute",
      .object [("category", id), ("value", .text field), ("operator", word)])]) =
        .ok (compare category field operator) :=
  read_eq_ok_iff.mpr ⟨.compare rfl hid ⟨rfl, hfield⟩ hword, hlimit⟩

theorem conditions_eq_map : conditions principal parts = parts.map (condition principal) := by
  induction parts with
  | nil => rfl
  | cons part rest ih => rw [conditions, ih, List.map_cons]

/-- What a part tests the whole does. -/
theorem tests_combine {logic : Logic} (hpart : part ∈ parts)
    (h : (condition principal part).Tests field) :
    (condition principal (combine logic parts)).Tests field := by
  have hmem : condition principal part ∈ conditions principal parts := by
    rw [conditions_eq_map]
    exact List.mem_map_of_mem hpart
  cases logic with
  | and => exact .allOf hmem h
  | or => exact .anyOf hmem h

/-- The leaf is where a field comes from. -/
theorem PartAt.tests (h : PartAt tree path node) (hnode : node = compare category field operator)
    (hvalues : principal.attributeValues category ≠ []) :
    (condition principal tree).Tests field := by
  induction h with
  | here =>
    subst hnode
    rw [condition, compareCondition, if_neg (by simpa using hvalues)]
    exact .here _ _
  | child hpart _ ih => exact tests_combine (List.mem_of_getElem? hpart) (ih hnode)

/-- A group leaf tests no field. -/
theorem not_tests_shareCondition {named : List Uuid} :
    ¬ (shareCondition principal named).Tests field := by
  rw [shareCondition]
  intro h
  split at h <;> cases h

/-- An attribute leaf tests its field, if there is a value. -/
theorem eq_of_tests_compareCondition {other : String}
    (h : (compareCondition principal category other operator).Tests field) :
    other = field ∧ principal.attributeValues category ≠ [] := by
  rw [compareCondition] at h
  split at h
  · cases h
  · next hvalues =>
    cases h with
    | here => exact ⟨rfl, by simpa using hvalues⟩

mutual

/-- A field that a compiled rule tests is that of a leaf, -/
theorem exists_partAt_of_tests : ∀ tree : RuleTree, (condition principal tree).Tests field →
    ∃ path category operator, PartAt tree path (compare category field operator) ∧
      principal.attributeValues category ≠ []
  | compare category other operator, h => by
    obtain ⟨rfl, hvalues⟩ := eq_of_tests_compareCondition h
    exact ⟨[], category, operator, .here _, hvalues⟩
  | share named, h => absurd h not_tests_shareCondition
  | combine .and parts, .allOf hpart h | combine .or parts, .anyOf hpart h => by
    obtain ⟨index, part, path, category, operator, hindex, hnode, hvalues⟩ :=
      exists_index_of_tests parts _ hpart h
    exact ⟨index :: path, category, operator, .child hindex hnode, hvalues⟩

/-- of one part if it joins several. -/
theorem exists_index_of_tests : ∀ parts : List RuleTree, ∀ compiled ∈ conditions principal parts,
    compiled.Tests field → ∃ (index : Nat) (part : RuleTree) (path : List Nat) (category : Uuid)
      (operator : Operator), parts[index]? = some part ∧
        PartAt part path (compare category field operator) ∧
        principal.attributeValues category ≠ []
  | [], _, hmem, _ => nomatch hmem
  | first :: _, _, .head _, h => by
    obtain ⟨path, category, operator, hnode, hvalues⟩ := exists_partAt_of_tests first h
    exact ⟨0, first, path, category, operator, rfl, hnode, hvalues⟩
  | _ :: rest, _, .tail _ hmem, h => by
    obtain ⟨index, part, path, category, operator, hindex, hnode, hvalues⟩ :=
      exists_index_of_tests rest _ hmem h
    exact ⟨index + 1, part, path, category, operator, hindex, hnode, hvalues⟩

end

/-- **The fields that a compiled rule tests** are those of its attribute leaves, as far as the
principal has values to compare them with. -/
theorem tests_condition_iff : (condition principal tree).Tests field ↔
    ∃ path category operator, PartAt tree path (compare category field operator) ∧
      principal.attributeValues category ≠ [] := by
  refine ⟨exists_partAt_of_tests tree, ?_⟩
  rintro ⟨path, category, operator, hpart, hvalues⟩
  exact hpart.tests rfl hvalues

/-- **The fields of a rule that has been read**, at any node: each is a plain name, or one with a
line feed behind it, and the path by which it is looked up has its characters as they are. These
fields, and no others, reach the condition that the rule is compiled to for a principal, as far
as the principal has values to compare them with. There is a rule for every such field. -/
theorem fields_of_read (h : read limit document = .ok tree) :
    (∀ path category field operator, PartAt tree path (compare category field operator) →
      IsAdmitted field ∧ Path.ofField field = .member field.toList .finish) ∧
    (∀ principal field, (condition principal tree).Tests field ↔
      ∃ path category operator, PartAt tree path (compare category field operator) ∧
        principal.attributeValues category ≠ []) ∧
    ∀ category field operator id word, IsAdmitted field → SpellsId id category →
      SpellsOperator word operator →
      read limit (.object [("attribute",
        .object [("category", id), ("value", .text field), ("operator", word)])]) =
          .ok (compare category field operator) := by
  obtain ⟨hspells, hdepth⟩ := read_eq_ok_iff.mp h
  have hlimit : 1 ≤ limit := by
    have := depth_pos tree
    omega
  refine ⟨fun path category field operator hpart => ?_, fun principal field => tests_condition_iff,
    fun category field operator id word hfield hid hword =>
      read_of_isAdmitted hlimit hfield hid hword⟩
  have hadmitted := hpart.isAdmitted hspells
  exact ⟨hadmitted, ofField_of_isAdmitted hadmitted⟩

/-- A stored attribute leaf that compares a field. -/
def leafRule (field : String) : Value :=
  .object [("attribute", .object
    [("category", .text "00000000-0000-0000-0000-000000000003"), ("value", .text field),
      ("operator", .text "eq")])]

theorem spells_leafRule (hfield : IsAdmitted field) :
    Spells (leafRule field) (compare 3 field .equal) :=
  .compare rfl (spellsId_text (by decide +kernel)) ⟨rfl, hfield⟩
    ⟨_, rfl, Text.map_toLower_eq_iff.mp rfl⟩

/-- Of two fields that a rule compares both are admitted, and both reach its condition. -/
theorem fields_of_read_two :
    let document : Value :=
      .object [("logic", .text "or"), ("rules", .list [leafRule "site", leafRule "site\n"])]
    let tree : RuleTree := combine .or [compare 3 "site" .equal, compare 3 "site\n" .equal]
    let principal : Principal := { userId := 1, attributes := [(3, ["north"])] }
    read 32 document = .ok tree ∧ IsAdmitted "site" ∧ IsAdmitted "site\n" ∧
      (condition principal tree).Tests "site" ∧ (condition principal tree).Tests "site\n" := by
  intro document tree principal
  have hsite : IsAdmitted "site" := isFieldName_iff_isAdmitted.mp (by decide)
  have hfed : IsAdmitted "site\n" := isFieldName_iff_isAdmitted.mp (by decide)
  have hspells : Spells document tree :=
    .combine rfl rfl ⟨_, rfl, Text.map_toLower_eq_iff.mp rfl⟩ rfl
      (.cons (spells_leafRule hsite) (.cons (spells_leafRule hfed) .nil))
  have hread : read 32 document = .ok tree :=
    read_eq_ok_iff.mpr ⟨hspells, (by decide : _ ≤ (32 : Int))⟩
  obtain ⟨hfields, htests, -⟩ := fields_of_read hread
  have hfirst : PartAt tree [0] (compare 3 "site" .equal) := .child rfl (.here _)
  have hsecond : PartAt tree [1] (compare 3 "site\n" .equal) := .child rfl (.here _)
  have hvalues : principal.attributeValues 3 ≠ [] := by decide
  exact ⟨hread, (hfields _ _ _ _ hfirst).1, (hfields _ _ _ _ hsecond).1,
    (htests principal _).mpr ⟨_, _, _, hfirst, hvalues⟩,
    (htests principal _).mpr ⟨_, _, _, hsecond, hvalues⟩⟩

/-- **A field with a line feed at its end** is read from a stored rule, and is no plain name. -/
theorem field_with_lineFeed :
    read 32 (leafRule "f\n") = .ok (compare 3 "f\n" .equal) ∧ ¬ IsPlainName "f\n" :=
  ⟨read_eq_ok_iff.mpr ⟨spells_leafRule (isFieldName_iff_isAdmitted.mp (by decide)), by decide⟩,
    not_isPlainName_append "f"⟩

end RuleTree

end Clearance
