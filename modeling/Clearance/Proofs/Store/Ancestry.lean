import Clearance.Proofs.Identifier.Text
import Clearance.Proofs.Store.Upwards

/-!
# The ancestry of an object

A walk asks for the parents of an object, of those parents, and so on. Where it can get in so
many steps is `Clearance.Store.ReachesIn`, which knows nothing about kinds, levels or what has
been visited before: an object whose reference dangles has no parents, and that is all that is
lost by it.

A walk stops after four levels and does not visit an identifier twice. It misses nothing by that
(`Clearance.Store.walk_exact`), because the number of steps to an object can be read off its
level (`Clearance.Store.reachesIn_iff`): so no route is longer than another that leads to the
same object, and none has more than three steps.
-/

namespace Clearance.Store

/-- An object that is reached from another **in so many steps**, each of them to one of the
parents. -/
inductive ReachesIn (store : Store) (start : Entity) : Nat → Entity → Prop
  /-- The start is reached at once. -/
  | here : ReachesIn store start 0 start
  /-- A parent is reached in one step more. -/
  | parent {steps : Nat} {lower upper : Entity} {uppers : List Entity}
      (h : ReachesIn store start steps lower) (hparents : store.parentsOf lower = .ok uppers)
      (hupper : upper ∈ uppers) : ReachesIn store start (steps + 1) upper

variable {store : Store} {start lower upper entity : Entity} {levels steps : Nat} {walk : Walk}

/-! ### Parents -/

/-- **The parents of an object** that is no application are told by the relation, unless they
are not found because a reference dangles. -/
theorem parentsOf_spec (hopen : store.isOpen = true) (hkeyed : store.IsKeyed)
    (hlower : lower.kind.isContaining) (hnot : lower.kind ≠ .application) :
    (∃ uppers, store.parentsOf lower = .ok uppers ∧
        ∀ upper, upper ∈ uppers ↔ store.IsBelow lower upper) ∨
      (∃ kind id, store.parentsOf lower = .error (.notFound kind id)) ∧
        ∀ upper, ¬ store.IsBelow lower upper := by
  obtain ⟨uppers, huppers, habove | ⟨rfl, kind, id, habove⟩⟩ :=
    above_spec hopen hkeyed hlower hnot
  · exact .inl ⟨uppers, by rw [parentsOf, habove], huppers⟩
  · refine .inr ⟨⟨kind, id, by rw [parentsOf, habove]⟩, fun upper hbelow => ?_⟩
    exact List.not_mem_nil ((huppers upper).mpr hbelow)

/-- An application has no parents that could be asked for. -/
theorem parentsOf_of_application (hkind : entity.kind = .application) :
    store.parentsOf entity = .error (.notContainer entity.kind.name) := by
  cases entity <;> first | rfl | cases hkind

theorem isBelow_iff_parentsOf (hopen : store.isOpen = true) (hkeyed : store.IsKeyed)
    (hlower : lower.kind.isContaining) :
    store.IsBelow lower upper ↔ ∃ uppers, store.parentsOf lower = .ok uppers ∧ upper ∈ uppers := by
  by_cases happlication : lower.kind = .application
  · rw [parentsOf_of_application happlication]
    simpa using fun hbelow => IsBelow.not_application hbelow happlication
  · rcases parentsOf_spec hopen hkeyed hlower happlication with
      ⟨uppers, hparents, huppers⟩ | ⟨⟨kind, id, herror⟩, hnone⟩
    · simp [hparents, huppers]
    · simp [herror, hnone]

/-- What has not been found can be told from the error. -/
theorem notFound_inj {kind kind' : Kind} {id id' : Uuid} :
    AccessError.notFound kind id = .notFound kind' id' ↔ kind = kind' ∧ id = id' := by
  simp [AccessError.notFound, Kind.name_inj, Uuid.text_inj]

/-- The reference of an object dangles if its parents are not found. -/
theorem parentsOf_eq_notFound_iff {kind : Kind} {id : Uuid} :
    store.parentsOf entity = .error (.notFound kind id) ↔
      store.above entity = .dangling kind id := by
  rw [parentsOf]
  cases store.above entity with
  | objects => simp
  | dangling => simp [notFound_inj]
  | noContainer => simp [AccessError.notFound]
  | closed => simp [AccessError.notFound]

/-- **Steps are levels.** -/
theorem reachesIn_iff (hopen : store.isOpen = true) (hkeyed : store.IsKeyed)
    (hkind : start.kind.isContaining) :
    store.ReachesIn start steps entity ↔
      store.Reaches start entity ∧ entity.level = start.level + steps := by
  constructor
  · intro h
    induction h with
    | here => exact ⟨.refl, rfl⟩
    | parent _ hparents hupper ih =>
      obtain ⟨hreach, hlevel⟩ := ih
      have hbelow := (isBelow_iff_parentsOf hopen hkeyed (hreach.isContaining hkind)).mpr
        ⟨_, hparents, hupper⟩
      exact ⟨hreach.tail hbelow, by rw [hbelow.level_eq, hlevel, Nat.add_assoc]⟩
  · rintro ⟨hreach, hlevel⟩
    induction hreach generalizing steps with
    | refl =>
      obtain rfl : steps = 0 := by omega
      exact .here
    | @tail lower upper hreach hbelow ih =>
      have hle := Reaches.level_le hreach
      rw [hbelow.level_eq] at hlevel
      obtain ⟨before, rfl⟩ : ∃ before, steps = before + 1 := ⟨steps - 1, by omega⟩
      obtain ⟨uppers, hparents, hupper⟩ :=
        (isBelow_iff_parentsOf hopen hkeyed (Reaches.isContaining hreach hkind)).mp hbelow
      exact .parent (ih (by omega)) hparents hupper

/-! ### The limit -/

/-- When nothing is left to be visited, further levels change nothing. -/
theorem walkLevels_of_next_eq_nil (hdone : walk.next = []) :
    store.walkLevels levels walk = .ok walk := by
  induction levels with
  | zero => rfl
  | succ levels ih =>
    have hlevel : walk.next.foldlM store.visit { walk with next := [] } = .ok walk := by
      rw [hdone, List.foldlM_nil, ← hdone]
      rfl
    rw [walkLevels, hlevel]
    exact ih

theorem walkLevels_add {more : Nat} {last : Walk} (h : store.walkLevels levels walk = .ok last) :
    store.walkLevels (levels + more) walk = store.walkLevels more last := by
  induction levels generalizing walk with
  | zero =>
    obtain rfl := Except.ok.inj h
    rw [Nat.zero_add]
  | succ levels ih =>
    obtain ⟨reached, hreached, hlast⟩ := Outcome.bind_eq_ok.mp h
    rw [Nat.succ_add, walkLevels, hreached]
    exact ih hlast

/-- **The ancestry is complete.** From a step, a workflow, a page or an application that is stored
(`IsKeyed.admits`), or whose identifier is not in use (`admits_of_id_ne`), the walk comes to an
end, and it would come to the same end if it were allowed more levels. It visits no identifier
twice, and it visits the start and what is reached from it, in however many steps; what is
reached in fewer steps comes first. The parents of an object visited have been visited, unless
they are not found; then the reference is noted, and nothing else is lost. -/
theorem walk_exact (hopen : store.isOpen = true) (hkeyed : store.IsKeyed)
    (hkind : start.kind.isContaining) (hadmits : store.Admits start) :
    ∃ walk, store.walk start = .ok walk ∧
      (∀ levels, maxLevels ≤ levels → store.walkLevels levels { next := [start] } = .ok walk) ∧
      (walk.visited.map Entity.id).Nodup ∧
      (∀ entity, entity ∈ walk.visited ↔ ∃ steps, store.ReachesIn start steps entity) ∧
      (walk.visited.Pairwise fun a b =>
        ∀ m n, store.ReachesIn start m a → store.ReachesIn start n b → m ≤ n) ∧
      (∀ entity ∈ walk.visited, entity.kind ≠ .application →
        (∃ uppers, store.parentsOf entity = .ok uppers ∧ uppers ⊆ walk.visited) ∨
          ∃ kind id, store.parentsOf entity = .error (.notFound kind id)) ∧
      (∀ reference, reference ∈ walk.dangling ↔ reference.holder ∈ walk.visited ∧
        store.parentsOf reference.holder = .error (.notFound reference.kind reference.id)) := by
  obtain ⟨walk, hwalk, hclimbs, hdone⟩ := exists_climbs hopen hkeyed hadmits hkind
  have hvisited : ∀ entity, entity ∈ walk.visited ↔ store.Reaches start entity :=
    fun entity => hclimbs.mem_visited_iff hdone
  refine ⟨walk, hwalk, fun levels hlevels => ?_, ?_, fun entity => ?_, ?_, ?_, ?_⟩
  · obtain ⟨more, rfl⟩ := Nat.exists_eq_add_of_le hlevels
    exact (walkLevels_add hwalk).trans (walkLevels_of_next_eq_nil hdone)
  · exact List.pairwise_map.mpr (hclimbs.ordered.imp And.right)
  · simp only [hvisited, reachesIn_iff hopen hkeyed hkind]
    constructor
    · intro hreach
      exact ⟨entity.level - start.level, hreach, by have := Reaches.level_le hreach; omega⟩
    · rintro ⟨steps, hreach, -⟩
      exact hreach
  · refine hclimbs.ordered.imp fun hab m n ha hb => ?_
    have hm := ((reachesIn_iff hopen hkeyed hkind).mp ha).2
    have hn := ((reachesIn_iff hopen hkeyed hkind).mp hb).2
    omega
  · intro entity hentity hnot
    have hreach := (hvisited entity).mp hentity
    rcases parentsOf_spec hopen hkeyed (hreach.isContaining hkind) hnot with
      ⟨uppers, hparents, huppers⟩ | ⟨herror, -⟩
    · refine .inl ⟨uppers, hparents, fun upper hupper => ?_⟩
      exact (hvisited upper).mpr (hreach.tail ((huppers upper).mp hupper))
    · exact .inr herror
  · intro reference
    rw [hclimbs.dangling, parentsOf_eq_notFound_iff]

/-- A step whose workflow is displayed on two pages; the application of one does not exist. -/
theorem walk_exact_danglingPage :
    let workflow : Entity := .workflow { id := some ⟨2, by decide⟩ }
    let step : Entity := .step { id := some ⟨1, by decide⟩ } workflow.id {}
    let application : Entity := .application { id := some ⟨5, by decide⟩ } .null
    let page : Entity := .page { id := some ⟨4, by decide⟩ } application.id { id := workflow.id }
    let torn : Entity := .page { id := some ⟨3, by decide⟩ } (some 9) { id := workflow.id }
    let store : Store := { entities := [application, page, torn, workflow, step] }
    ∃ walk, store.walk step = .ok walk ∧ store.walkLevels 7 { next := [step] } = .ok walk ∧
      application ∈ walk.visited ∧ ⟨torn, .application, 9⟩ ∈ walk.dangling := by
  intro workflow step application page torn store
  have hkeyed : store.IsKeyed :=
    { identified := by simp [store, step, workflow, torn, page, application, Entity.id]
      distinct := by simp [store, step, workflow, torn, page, application, Entity.id] }
  have hadmits : store.Admits step := hkeyed.admits (by simp [store]) (.inl rfl)
  obtain ⟨walk, hwalk, hlevels, -, hvisited, -, -, hdangling⟩ :=
    walk_exact rfl hkeyed (.inl rfl) hadmits
  have hworkflow : store.ReachesIn step 1 workflow := .parent .here rfl List.mem_cons_self
  have htorn : store.ReachesIn step 2 torn := .parent hworkflow rfl List.mem_cons_self
  have hpage : store.ReachesIn step 2 page :=
    .parent hworkflow rfl (List.mem_cons_of_mem _ List.mem_cons_self)
  have happlication : store.ReachesIn step 3 application := .parent hpage rfl List.mem_cons_self
  refine ⟨walk, hwalk, hlevels 7 (by decide), (hvisited _).mpr ⟨3, happlication⟩, ?_⟩
  exact (hdangling _).mpr ⟨(hvisited _).mpr ⟨2, htorn⟩, rfl⟩

end Clearance.Store
