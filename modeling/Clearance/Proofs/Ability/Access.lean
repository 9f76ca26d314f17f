import Clearance.Proofs.Ability.Naming
import Clearance.Proofs.Ability.Selection
import Clearance.Proofs.Store.Keys

/-!
# What is accessible

A store lists the objects of a kind on which an ability allows an action. It does so by the
filter of the ability, in the order of identifiers, and never asks the ability about an
object. This file says that the list is right (`Clearance.Ability.accessible_exact`): the
filter selects just the objects that the ability allows the action on, and they come in
strictly ascending order. There is a list whenever the engine of the store carries the search
out.
-/

namespace Clearance

/-- **A condition that suits a kind renders** on rows that are loaded, on which the store
reads it as it should, and on which its leaves are read alike. -/
theorem Condition.renders_of_suits {kind : Kind} {rows : List Entity} {condition : Condition}
    (hsuits : condition.suits kind = true) (hkind : ∀ row ∈ rows, row.kind = kind)
    (hloaded : ∀ row ∈ rows, row.IsLoaded) (hread : ∀ row ∈ rows, condition.IsRead row)
    (halike : ∀ row ∈ rows, condition.ReadsAlike row) : condition.Renders kind rows := by
  obtain ⟨filter, hrendered⟩ := exists_isRendered hsuits
  refine ⟨filter, hrendered.written, hrendered.taken, fun row hrow => ?_⟩
  obtain ⟨answer, heval, hagree⟩ := hrendered.definite row (hkind row hrow) (hloaded row hrow)
  have hholds : answer = condition.holds row := (hagree (hread row hrow)).1 (halike row hrow)
  have hcheck : condition.check row = .ok (condition.holds row) := by
    refine check_eq_holds (hloaded row hrow) ?_
    rwa [hkind row hrow]
  exact ⟨answer, heval, by rw [hcheck, hholds]⟩

/-! ### Rules that allow and deny in turn -/

/-- An application with a name. -/
def Entity.named (id : Uuid) (name : String) : Entity :=
  .application { id := some id, name := .text name } (.text activeStatus)

theorem Entity.isLoaded_named (id : Uuid) (name : String) : (named id name).IsLoaded := by
  refine isLoaded_of_cells ?_ (by simp [named, kind])
  simp [named, cells, Listed.cells, Cell.IsTyped, Column.Holds, Cell.ofId]

/-- A store of two applications, put in against their order. -/
def Store.ofTwo : Store where
  entities := [.named ⟨2, by decide⟩ "n0", .named ⟨1, by decide⟩ "n1"]

theorem Store.isKeyed_ofTwo : ofTwo.IsKeyed where
  identified := by simp [ofTwo, Entity.named, Entity.id]
  distinct := by simp [ofTwo, Entity.named, Entity.id]

namespace Ability

/-- Rules that **allow and deny in turn** to read applications by their names. -/
def alternating (count : Nat) : Ability where
  rules := (List.range count).map fun place =>
    { action := .read
      kind := .application
      condition := some (.fieldEquals "name" (.value (.text ("n" ++ toString place))))
      inverted := place % 2 == 1 }

/-- However many of them there are, their conditions render on applications. -/
theorem renders_alternating (count : Nat) {rule : Rule}
    (hrule : rule ∈ (alternating count).rulesFor .read .application) {condition : Condition}
    (hcondition : rule.condition = some condition) :
    condition.Renders .application (Store.ofTwo.ofKind .application) := by
  obtain ⟨place, -, rfl⟩ := List.mem_map.mp (mem_rulesFor.mp hrule).1
  obtain rfl := Option.some.inj hcondition
  have hrows : ∀ row ∈ Store.ofTwo.ofKind .application, row.kind = .application ∧ row.IsLoaded := by
    intro row hrow
    obtain ⟨hstored, hkind⟩ := Store.mem_ofKind.mp hrow
    refine ⟨hkind, ?_⟩
    rcases List.mem_pair.mp hstored with rfl | rfl
    · exact Entity.isLoaded_named _ _
    · exact Entity.isLoaded_named _ _
  refine Condition.renders_of_suits rfl (fun row hrow => (hrows row hrow).1)
    (fun row hrow => (hrows row hrow).2) (fun _ _ => trivial) fun row hrow => ?_
  -- names are texts, which a store compares as they are
  have hcolumn : row.kind.column? "name" = some .text := by
    rw [(hrows row hrow).1]
    decide
  exact Condition.readsAlike_fieldEquals hcolumn (by decide)

/-! ### The list -/

variable {store : Store} {ability : Ability} {action : Action} {kind : Kind}

/-- **The accessible objects are those on which the action is allowed.** If the conditions of
the rules render on the stored objects, the filter is true of an object when the ability
allows the action on it and false otherwise. The store lists something just when its engine
carries out the search with the filter, and what it lists are those objects and no others, in
strictly ascending order.

The rules that the program makes name attributes of their kinds only, so the filter of an
ability that it makes can always be written. -/
theorem accessible_exact (hopen : store.isOpen = true) (hkeyed : store.IsKeyed)
    (hrenders : ∀ rule ∈ ability.rulesFor action kind, ∀ condition,
      rule.condition = some condition → condition.Renders kind (store.ofKind kind)) :
    (∃ filter, ability.filter action kind = .ok filter ∧
      (∀ entity ∈ store.entities, entity.kind = kind → ∃ answer,
        filter.eval entity = some answer ∧ ability.allows action entity = .ok answer) ∧
      ((∃ found, store.accessible ability action kind = .ok found) ↔
        store.engine.CarriesOut filter (store.ofKind kind)) ∧
      ∀ found, store.accessible ability action kind = .ok found →
        found.Pairwise Entity.Precedes ∧
        ∀ entity, entity ∈ found ↔
          entity ∈ store.entities ∧ entity.kind = kind ∧
            ability.allows action entity = .ok true) ∧
    ∀ principal extensions extended,
      (base principal).extendBy extensions = .ok extended →
      ∀ stored ∈ Kind.stored, ∀ action,
        (∀ rule ∈ extended.rulesFor action stored, ∀ condition,
          rule.condition = some condition → condition.suits stored = true) ∧
        ∃ filter, extended.filter action stored = .ok filter := by
  constructor
  · obtain ⟨filter, hfilter, htaken, hanswers⟩ := exists_filter hrenders
    have hallows : ∀ entity ∈ store.entities, entity.kind = kind → ∃ answer,
        filter.eval entity = some answer ∧ ability.allows action entity = .ok answer := by
      intro entity hentity hkind
      obtain ⟨answer, heval, hcheck⟩ := hanswers entity (Store.mem_ofKind.mpr ⟨hentity, hkind⟩)
      exact ⟨answer, heval, by rwa [allows, hkind]⟩
    simp only [accessible_eq_select hopen hfilter, Store.select_eq_ok_iff hopen]
    refine ⟨filter, hfilter, hallows, ?_, ?_⟩
    · exact ⟨fun ⟨_, _, hcarries, _⟩ => hcarries, fun hcarries => ⟨_, htaken, hcarries, rfl⟩⟩
    · rintro _ ⟨-, -, rfl⟩
      refine ⟨(hkeyed.pairwise_ofKind kind).filter _, fun entity => ?_⟩
      rw [List.mem_filter, Store.mem_ofKind, and_assoc]
      refine and_congr_right fun hentity => and_congr_right fun hkind => ?_
      -- the filter has an answer, and it is that of the ability
      obtain ⟨answer, heval, hanswer⟩ := hallows entity hentity hkind
      rw [Filter.selects, heval, hanswer]
      simp
  · intro principal extensions extended h stored hstored action
    refine ⟨fun rule hrule condition hcondition => ?_, exists_filter_of_extendBy h hstored⟩
    exact suits_of_extendBy h hstored hrule hcondition

/-- Of two applications the one that is allowed is listed. -/
theorem accessible_exact_alternating :
    ∃ found, Store.ofTwo.accessible (alternating 2) .read .application = .ok found ∧
      ∀ entity, entity ∈ found ↔ entity = .named ⟨2, by decide⟩ "n0" := by
  obtain ⟨⟨filter, -, -, hlists, hlisted⟩, -⟩ := accessible_exact rfl Store.isKeyed_ofTwo
    fun rule hrule condition hcondition => renders_alternating 2 hrule hcondition
  obtain ⟨found, hfound⟩ := hlists.mpr ⟨rfl, fun _ _ => rfl⟩
  refine ⟨found, hfound, fun entity => ((hlisted found hfound).2 entity).trans ?_⟩
  constructor
  · rintro ⟨hstored, -, hallows⟩
    rcases List.mem_pair.mp hstored with rfl | rfl
    · rfl
    · -- the second rule denies to read the other one
      exact absurd hallows (by decide)
  · rintro rfl
    exact ⟨List.mem_cons_self, rfl, by decide⟩

end Ability

end Clearance
