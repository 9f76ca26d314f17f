import Clearance.Proofs.Outcome
import Clearance.Proofs.Store.Keys
import Clearance.Store.Containment
import Mathlib.Logic.Relation

/-!
# Walking upwards

What is above an object is told by a relation, `Clearance.Store.IsBelow`: a step is below its
workflow, a workflow below every page that displays it, and a page below its application,
if these are stored. A walk goes up four levels and visits each identifier once, and yet it
visits exactly what can be reached by any number of steps
(`Clearance.Store.exists_walk`), for three reasons.

* Every step goes up by one in `Clearance.Entity.level`, and there are four levels. So after
  four levels nothing is left to be visited.
* Identifiers tell objects apart, so that what is left out has really been visited.
* A dangling reference leads to nothing that is stored; leaving it out loses nothing.

The start need not be stored, as long as nothing of another kind has its identifier
(`Clearance.Store.Admits`).

The invariant of the walk is `Clearance.Store.Climbs`: what has been visited or is still to
be visited can be reached, and what is directly above something visited has been visited or
is still to be. Besides, what has been visited is in the order of the levels, and the dangling
references that have been noted are those of what has been visited.
-/

namespace Clearance

open Outcome

/-! ### Levels -/

/-- The **level** of an object in the order of containment. -/
def Entity.level : Entity → Nat
  | .step .. => 0
  | .workflow _ => 1
  | .page .. => 2
  | _ => 3

theorem Entity.level_le (entity : Entity) : entity.level ≤ 3 := by
  cases entity <;> simp [level]

/-- The level is that of the kind. -/
theorem Entity.level_eq_of_kind_eq {a b : Entity} (h : a.kind = b.kind) : a.level = b.level := by
  cases a <;> cases b <;> first | rfl | cases h

/-- The kinds that a walk can come across. -/
def Kind.isContaining (kind : Kind) : Prop :=
  kind = .step ∨ kind = .workflow ∨ kind = .page ∨ kind = .application

namespace Store

/-! ### What is above -/

/-- An object that is **directly below** a stored one. -/
inductive IsBelow (store : Store) : Entity → Entity → Prop
  /-- A step is below its workflow. -/
  | workflow {listed : Listed} {id : Uuid} {display : Display} {upper : Entity}
      (hstored : upper ∈ store.entities) (hkind : upper.kind = .workflow)
      (hid : upper.id = some id) : IsBelow store (.step listed (some id) display) upper
  /-- A workflow is below every page that displays it. -/
  | page {listed : Listed} {upper : Entity}
      (hstored : upper ∈ store.entities) (hkind : upper.kind = .page)
      (hdisplays : displays listed.id upper = true) : IsBelow store (.workflow listed) upper
  /-- A page is below its application. -/
  | application {listed : Listed} {id : Uuid} {display : Display} {upper : Entity}
      (hstored : upper ∈ store.entities) (hkind : upper.kind = .application)
      (hid : upper.id = some id) : IsBelow store (.page listed (some id) display) upper

/-- An object that is reached from another **upwards**, by any number of steps. -/
abbrev Reaches (store : Store) : Entity → Entity → Prop := Relation.ReflTransGen store.IsBelow

variable {store : Store} {start lower upper entity : Entity}

namespace IsBelow

theorem stored (h : store.IsBelow lower upper) : upper ∈ store.entities := by
  cases h <;> assumption

theorem isContaining (h : store.IsBelow lower upper) : upper.kind.isContaining := by
  cases h with
  | workflow _ hkind _ => exact .inr (.inl hkind)
  | page _ hkind _ => exact .inr (.inr (.inl hkind))
  | application _ hkind _ => exact .inr (.inr (.inr hkind))

/-- Every step goes up one level. -/
theorem level_eq (h : store.IsBelow lower upper) : upper.level = lower.level + 1 := by
  cases h with
  | workflow _ hkind _ | page _ hkind _ | application _ hkind _ =>
    cases upper <;> first | rfl | exact Kind.noConfusion hkind

/-- There is nothing above an application. -/
theorem not_application (h : store.IsBelow lower upper) : lower.kind ≠ .application := by
  cases h <;> simp [Entity.kind]

/-- **Above a step** is the workflow that it belongs to. -/
theorem iff_eq_of_isStepOf (hkeyed : store.IsKeyed) {workflow : Entity}
    (hworkflow : workflow ∈ store.entities) (hkind : workflow.kind = .workflow)
    (hstep : isStepOf workflow.id lower = true) : store.IsBelow lower upper ↔ upper = workflow := by
  cases lower with
  | step listed workflowId display =>
    obtain rfl : workflowId = workflow.id := beq_iff_eq.mp hstep
    obtain ⟨id, hid⟩ := hkeyed.identified workflow hworkflow
    rw [hid]
    constructor
    · rintro (⟨hstored, hupper, hsame⟩ | _)
      exact hkeyed.eq_of_id_eq hstored hworkflow (.inl (hupper.trans hkind.symm))
        (hsame.trans hid.symm)
    · rintro rfl
      exact .workflow hworkflow hkind hid
  | _ => cases hstep

/-- **Above a workflow** are the pages that display it. -/
theorem iff_mem_pagesDisplaying (hkind : lower.kind = .workflow) :
    store.IsBelow lower upper ↔ upper ∈ store.pagesDisplaying lower.id := by
  rw [pagesDisplaying, mem_ofKindWhere]
  cases lower with
  | workflow listed =>
    constructor
    · rintro (_ | ⟨hstored, hupper, hdisplays⟩)
      exact ⟨hstored, hupper, hdisplays⟩
    · rintro ⟨hstored, hupper, hdisplays⟩
      exact .page hstored hupper hdisplays
  | _ => cases hkind

/-- **Above a page** is its application. -/
theorem iff_isPageOf (hkeyed : store.IsKeyed) (hkind : lower.kind = .page) :
    store.IsBelow lower upper ↔
      upper ∈ store.entities ∧ upper.kind = .application ∧ isPageOf upper.id lower = true := by
  cases lower with
  | page listed applicationId display =>
    constructor
    · rintro (_ | _ | ⟨hstored, hupper, hid⟩)
      exact ⟨hstored, hupper, by rw [hid, isPageOf, beq_self_eq_true]⟩
    · rintro ⟨hstored, hupper, hpage⟩
      obtain rfl : applicationId = upper.id := beq_iff_eq.mp hpage
      obtain ⟨id, hid⟩ := hkeyed.identified upper hstored
      rw [hid]
      exact .application hstored hupper hid
  | _ => cases hkind

end IsBelow

/-- Whatever is reached from a stored object is stored. -/
theorem Reaches.stored (h : store.Reaches start entity) (hstart : start ∈ store.entities) :
    entity ∈ store.entities := by
  cases h with
  | refl => exact hstart
  | tail _ hlast => exact hlast.stored

theorem Reaches.isContaining (h : store.Reaches start entity) (hstart : start.kind.isContaining) :
    entity.kind.isContaining := by
  cases h with
  | refl => exact hstart
  | tail _ hlast => exact hlast.isContaining

theorem Reaches.level_le (h : store.Reaches start entity) : start.level ≤ entity.level := by
  induction h with
  | refl => exact Nat.le_refl _
  | tail _ hbelow ih =>
    rw [hbelow.level_eq]
    exact Nat.le_succ_of_le ih

/-- An object is the start itself, or it is stored on a higher level. -/
theorem Reaches.eq_or_stored (h : store.Reaches start entity) :
    entity = start ∨ entity ∈ store.entities ∧ start.level < entity.level := by
  cases h with
  | refl => exact .inl rfl
  | tail hreach hlast =>
    have hle := Reaches.level_le hreach
    exact .inr ⟨hlast.stored, by rw [hlast.level_eq]; omega⟩

/-- Nothing else is reached from an application, -/
theorem reaches_iff_of_application (hkind : start.kind = .application) :
    store.Reaches start entity ↔ entity = start := by
  rw [Reaches, Relation.ReflTransGen.cases_head_iff, eq_comm]
  refine or_iff_left ?_
  rintro ⟨upper, hbelow, -⟩
  exact hbelow.not_application hkind

/-- only its application from a page, -/
theorem reaches_iff_of_page (hkeyed : store.IsKeyed) (hkind : start.kind = .page) :
    store.Reaches start entity ↔ entity = start ∨
      entity ∈ store.entities ∧ entity.kind = .application ∧ isPageOf entity.id start = true := by
  rw [Reaches, Relation.ReflTransGen.cases_head_iff, eq_comm, ← IsBelow.iff_isPageOf hkeyed hkind]
  refine or_congr_right ⟨?_, fun hbelow => ⟨entity, hbelow, .refl⟩⟩
  rintro ⟨upper, hbelow, hreach⟩
  obtain ⟨-, happlication, -⟩ := (IsBelow.iff_isPageOf hkeyed hkind).mp hbelow
  rwa [(reaches_iff_of_application happlication).mp hreach]

/-- what is reached from the pages that display it from a workflow, -/
theorem reaches_iff_of_workflow (hkind : start.kind = .workflow) :
    store.Reaches start entity ↔ entity = start ∨
      ∃ page ∈ store.pagesDisplaying start.id, store.Reaches page entity := by
  rw [Reaches, Relation.ReflTransGen.cases_head_iff, eq_comm]
  exact or_congr_right (exists_congr fun page =>
    and_congr_left fun _ => IsBelow.iff_mem_pagesDisplaying hkind)

/-- and what is reached from its workflow from a step. -/
theorem reaches_iff_of_step (hkeyed : store.IsKeyed) {workflow : Entity}
    (hworkflow : workflow ∈ store.entities) (hkind : workflow.kind = .workflow)
    (hstep : isStepOf workflow.id start = true) :
    store.Reaches start entity ↔ entity = start ∨ store.Reaches workflow entity := by
  rw [Reaches, Relation.ReflTransGen.cases_head_iff, eq_comm]
  simp only [IsBelow.iff_eq_of_isStepOf hkeyed hworkflow hkind hstep, exists_eq_left]

/-- Objects of these kinds have their keys in one table. -/
theorem sharesKeys_of_isContaining {a b : Entity} (ha : a.kind.isContaining)
    (hb : b.kind.isContaining) : a.SharesKeys b := by
  have hlisted : ∀ entity : Entity, entity.kind.isContaining → entity.listed?.isSome = true := by
    intro entity h
    cases entity <;> first | rfl | simp [Kind.isContaining, Entity.kind] at h
  exact .inr ⟨hlisted a ha, hlisted b hb⟩

/-- A store that **admits** an object as the start of a walk: nothing of another kind that a
walk can come across has its identifier. -/
def Admits (store : Store) (start : Entity) : Prop :=
  ∀ other ∈ store.entities, other.kind.isContaining → other.id = start.id → other.kind = start.kind

/-- What is stored can be a start. -/
theorem IsKeyed.admits (h : store.IsKeyed) (hstart : start ∈ store.entities)
    (hkind : start.kind.isContaining) : store.Admits start := by
  intro other hother hcontaining hid
  rw [h.eq_of_id_eq hother hstart (sharesKeys_of_isContaining hcontaining hkind) hid]

/-- So can anything whose identifier is not in use. -/
theorem admits_of_id_ne (h : ∀ other ∈ store.entities, other.id ≠ start.id) : store.Admits start :=
  fun other hother _ hid => absurd hid (h other hother)

/-- **Identifiers tell apart** what is reached. -/
theorem Reaches.eq_of_id_eq (hkeyed : store.IsKeyed) (hadmits : store.Admits start)
    (hkind : start.kind.isContaining) {a b : Entity} (ha : store.Reaches start a)
    (hb : store.Reaches start b) (hid : a.id = b.id) : a = b := by
  -- above the start nothing has its identifier, because it would be of the same kind
  have hstart : ∀ {other : Entity}, store.Reaches start other → other.id = start.id →
      other = start := by
    intro other hother hsame
    refine hother.eq_or_stored.resolve_right ?_
    rintro ⟨hstored, hlevel⟩
    have hkinds := hadmits other hstored (hother.isContaining hkind) hsame
    rw [Entity.level_eq_of_kind_eq hkinds] at hlevel
    exact Nat.lt_irrefl _ hlevel
  rcases ha.eq_or_stored with rfl | ⟨hstored, -⟩
  · exact (hstart hb hid.symm).symm
  rcases hb.eq_or_stored with rfl | ⟨hstored', -⟩
  · exact hstart ha hid
  · exact hkeyed.eq_of_id_eq hstored hstored'
      (sharesKeys_of_isContaining (ha.isContaining hkind) (hb.isContaining hkind)) hid

/-- A reference leads to the object that it names, or dangles when there is none. -/
theorem referenced_spec (hopen : store.isOpen = true) (hkeyed : store.IsKeyed) (kind : Kind)
    (id : Uuid) :
    ∃ uppers, (∀ upper, upper ∈ uppers ↔
        upper ∈ store.entities ∧ upper.kind = kind ∧ upper.id = some id) ∧
      (store.referenced kind (some id) = .objects uppers ∨
        uppers = [] ∧ store.referenced kind (some id) = .dangling kind id) := by
  rcases hfind : store.find? kind id with _ | found
  · refine ⟨[], fun upper => ?_, .inr ⟨rfl, by simp [referenced, hopen, hfind]⟩⟩
    -- nothing is stored under the key, so there is nothing above
    have hnone := IsKeyed.find?_eq_none_iff.mp hfind
    simp only [List.not_mem_nil, false_iff]
    rintro ⟨hmem, hkind, hid⟩
    exact hnone upper hmem hkind hid
  · refine ⟨[found], fun upper => ?_, .inl (by simp [referenced, hopen, hfind])⟩
    rw [List.mem_singleton, ← hkeyed.find?_eq_some_iff, hfind, Option.some.injEq, eq_comm]

/-- **What is directly above** an object that is no application: the objects that the
relation tells, unless there are none because a reference dangles. -/
theorem above_spec (hopen : store.isOpen = true) (hkeyed : store.IsKeyed)
    (hlower : lower.kind.isContaining) (hnot : lower.kind ≠ .application) :
    ∃ uppers, (∀ upper, upper ∈ uppers ↔ store.IsBelow lower upper) ∧
      (store.above lower = .objects uppers ∨
        uppers = [] ∧ ∃ kind id, store.above lower = .dangling kind id) := by
  cases lower with
  | step listed workflowId display =>
    cases workflowId with
    | none =>
      refine ⟨[], fun upper => ⟨fun h => absurd h List.not_mem_nil, ?_⟩, .inl rfl⟩
      rintro ⟨⟩
    | some id =>
      obtain ⟨uppers, hmem, habove⟩ := referenced_spec hopen hkeyed .workflow id
      refine ⟨uppers, fun upper => ?_, habove.imp_right fun h => ⟨h.1, _, _, h.2⟩⟩
      rw [hmem]
      constructor
      · rintro ⟨hstored, hkind, hid⟩
        exact .workflow hstored hkind hid
      · intro hbelow
        cases hbelow with
        | workflow hstored hkind hid => exact ⟨hstored, hkind, hid⟩
  | workflow listed =>
    refine ⟨store.pagesDisplaying listed.id, fun upper => ?_, .inl (by simp [above, hopen])⟩
    rw [pagesDisplaying, mem_ofKindWhere]
    constructor
    · rintro ⟨hstored, hkind, hdisplays⟩
      exact .page hstored hkind hdisplays
    · intro hbelow
      cases hbelow with
      | page hstored hkind hdisplays => exact ⟨hstored, hkind, hdisplays⟩
  | page listed applicationId display =>
    cases applicationId with
    | none =>
      refine ⟨[], fun upper => ⟨fun h => absurd h List.not_mem_nil, ?_⟩, .inl rfl⟩
      rintro ⟨⟩
    | some id =>
      obtain ⟨uppers, hmem, habove⟩ := referenced_spec hopen hkeyed .application id
      refine ⟨uppers, fun upper => ?_, habove.imp_right fun h => ⟨h.1, _, _, h.2⟩⟩
      rw [hmem]
      constructor
      · rintro ⟨hstored, hkind, hid⟩
        exact .application hstored hkind hid
      · intro hbelow
        cases hbelow with
        | application hstored hkind hid => exact ⟨hstored, hkind, hid⟩
  | application => exact absurd rfl hnot
  | _ => simp [Kind.isContaining, Entity.kind] at hlower

/-! ### The order of a walk -/

/-- A visit that does not fail adds the object at the end, unless it has been visited. -/
theorem visited_of_visit {walk next : Walk} (h : store.visit walk entity = .ok next) :
    next.visited =
      if walk.hasVisited entity.id then walk.visited else walk.visited ++ [entity] := by
  rw [visit] at h
  split at h
  · next hvisited => rw [if_pos hvisited, Except.ok.inj h]
  · next hvisited =>
    rw [if_neg hvisited]
    split at h
    · rw [← Except.ok.inj h]
    · split at h
      · rw [← Except.ok.inj h]
      · rw [← Except.ok.inj h]
      · cases h
      · cases h

/-- So what has been visited stays in front, -/
theorem visited_visit {walk next : Walk} (h : store.visit walk entity = .ok next) :
    walk.visited <+: next.visited := by
  rw [visited_of_visit h]
  split
  · exact List.prefix_rfl
  · exact List.prefix_append _ _

/-- whatever levels the walk takes. -/
theorem visited_walkLevels {levels : Nat} {walk last : Walk}
    (h : store.walkLevels levels walk = .ok last) : walk.visited <+: last.visited := by
  induction levels generalizing walk with
  | zero =>
    obtain rfl := Except.ok.inj h
    exact List.prefix_rfl
  | succ levels ih =>
    obtain ⟨next, hnext, hlast⟩ := bind_eq_ok.mp h
    have hlevel : walk.visited <+: next.visited :=
      foldlM_preserves (P := fun state => walk.visited <+: state.visited)
        (fun _ _ _ _ hstate hvisit => hstate.trans (visited_visit hvisit)) List.prefix_rfl hnext
    exact hlevel.trans (ih hlast)

/-- **A walk visits its start first.** -/
theorem exists_visited_eq_cons {walk : Walk} (h : store.walk start = .ok walk) :
    ∃ rest, walk.visited = start :: rest := by
  obtain ⟨first, hfirst, hlast⟩ := bind_eq_ok.mp h
  obtain ⟨visited, hvisit, hfirst⟩ := bind_eq_ok.mp hfirst
  obtain rfl : visited = first := Except.ok.inj hfirst
  have hstart : visited.visited = [start] := visited_of_visit hvisit
  obtain ⟨rest, hrest⟩ := visited_walkLevels hlast
  rw [hstart] at hrest
  exact ⟨rest, hrest.symm⟩

/-- **The walk from a page** leads to its application. -/
theorem walk_page (hopen : store.isOpen = true) (hkeyed : store.IsKeyed) {application page : Entity}
    (hstored : application ∈ store.entities) (hkind : application.kind = .application)
    (hpage : page ∈ store.pagesOf application.id) :
    store.walk page = .ok { visited := [page, application] } := by
  obtain ⟨hpageStored, hpageKind, hisPage⟩ := mem_ofKindWhere.mp hpage
  obtain ⟨id, hid⟩ := hkeyed.identified application hstored
  have hfind : store.find? .application id = some application :=
    hkeyed.find?_eq_some_iff.mpr ⟨hstored, hkind, hid⟩
  have hne : page.id ≠ application.id := fun hsame => by
    have hequal := hkeyed.eq_of_id_eq hpageStored hstored (sharesKeys_of_isContaining
      (.inr (.inr (.inl hpageKind))) (.inr (.inr (.inr hkind)))) hsame
    rw [hequal, hkind] at hpageKind
    cases hpageKind
  have habove : store.above page = .objects [application] := by
    cases page with
    | page listed applicationId display =>
      obtain rfl : applicationId = application.id := beq_iff_eq.mp hisPage
      simp [above, referenced, hid, hopen, hfind]
    | _ => cases hpageKind
  have hfirst : store.visit {} page = .ok { visited := [page], next := [application] } := by
    simp [visit, Walk.hasVisited, hpageKind, habove]
  have hsecond : store.visit { visited := [page] } application =
      .ok { visited := [page, application] } := by
    simp [visit, Walk.hasVisited, hkind, hne]
  simp [walk, maxLevels, walkLevels, hfirst, hsecond, bind, Except.bind, pure, Except.pure]

/-! ### The invariant of a walk -/

/-- A walk that **climbs** from an object: it is on its way to `level`, and of the objects
found before, those on the `frontier` are still to be visited. -/
structure Climbs (store : Store) (start : Entity) (level : Nat) (walk : Walk)
    (frontier : List Entity) : Prop where
  /-- The start is visited first. -/
  started : start ∈ walk.visited ∨ start ∈ frontier ∨ start ∈ walk.next
  /-- What has been visited can be reached and is below the level. -/
  visited : ∀ entity ∈ walk.visited, store.Reaches start entity ∧ entity.level < level
  /-- It has been visited level by level, and nothing twice. -/
  ordered : walk.visited.Pairwise fun a b => a.level ≤ b.level ∧ a.id ≠ b.id
  /-- What is still to be visited can be reached and is just below the level. -/
  waiting : ∀ entity ∈ frontier, store.Reaches start entity ∧ entity.level + 1 = level
  /-- What comes next can be reached and is on the level. -/
  next : ∀ entity ∈ walk.next, store.Reaches start entity ∧ entity.level = level
  /-- What is directly above something visited has been visited or will be. -/
  closed : ∀ lower ∈ walk.visited, ∀ upper, store.IsBelow lower upper →
    upper ∈ walk.visited ∨ upper ∈ frontier ∨ upper ∈ walk.next
  /-- The dangling references are those of what has been visited. -/
  dangling : ∀ reference, reference ∈ walk.dangling ↔ reference.holder ∈ walk.visited ∧
    store.above reference.holder = .dangling reference.kind reference.id

variable {level : Nat} {walk : Walk} {frontier : List Entity}

/-- A visit to an object that has not been visited adds the object, what is directly above it
and the reference that it holds if this dangles. -/
theorem visit_spec (hopen : store.isOpen = true) (hkeyed : store.IsKeyed)
    (hkind : entity.kind.isContaining) (hvisited : walk.hasVisited entity.id = false) :
    ∃ uppers, (∀ upper, upper ∈ uppers ↔ store.IsBelow entity upper) ∧
      ∃ dangling, (∀ reference, reference ∈ dangling ↔ reference ∈ walk.dangling ∨
          reference.holder = entity ∧ store.above entity = .dangling reference.kind reference.id) ∧
        store.visit walk entity =
          .ok { visited := walk.visited ++ [entity], next := walk.next ++ uppers, dangling } := by
  by_cases happlication : entity.kind = .application
  · have habove : store.above entity = .noContainer := by
      cases entity <;> first | rfl | cases happlication
    refine ⟨[], fun upper => ?_, walk.dangling, by simp [habove],
      by simp [visit, hvisited, happlication]⟩
    constructor
    · exact fun h => absurd h List.not_mem_nil
    · exact fun hbelow => absurd happlication hbelow.not_application
  · obtain ⟨uppers, huppers, habove | ⟨rfl, kind, id, habove⟩⟩ :=
      above_spec hopen hkeyed hkind happlication
    · exact ⟨uppers, huppers, walk.dangling, by simp [habove],
        by simp [visit, hvisited, happlication, habove]⟩
    · refine ⟨[], huppers, walk.dangling ++ [⟨entity, kind, id⟩], fun reference => ?_,
        by simp [visit, hvisited, happlication, habove]⟩
      obtain ⟨holder, kind', id'⟩ := reference
      simp [habove, eq_comm]

section Walk

variable (hopen : store.isOpen = true) (hkeyed : store.IsKeyed) (hadmits : store.Admits start)
  (hkind : start.kind.isContaining)

include hopen hkeyed hadmits hkind

/-- **One visit** keeps the invariant: the object is no longer to be visited. -/
theorem climbs_visit (h : store.Climbs start level walk (entity :: frontier)) :
    ∃ walk', store.visit walk entity = .ok walk' ∧ store.Climbs start level walk' frontier := by
  obtain ⟨hreach, hlevel⟩ := h.waiting entity List.mem_cons_self
  by_cases hvisited : walk.hasVisited entity.id = true
  · -- something with this identifier has been visited, and that is the object itself
    obtain ⟨other, hother, hid⟩ : ∃ other ∈ walk.visited, other.id = entity.id := by
      simpa [Walk.hasVisited] using hvisited
    obtain rfl := Reaches.eq_of_id_eq hkeyed hadmits hkind (h.visited other hother).1 hreach hid
    refine ⟨walk, by simp [visit, hvisited], ?_, h.visited, h.ordered,
      fun e he => h.waiting e (List.mem_cons_of_mem _ he), h.next,
      fun lower hlower upper hbelow => ?_, h.dangling⟩
    · have := h.started
      rw [List.mem_cons] at this
      grind
    · have := h.closed lower hlower upper hbelow
      rw [List.mem_cons] at this
      grind
  · obtain ⟨uppers, huppers, dangling, hdangling, hvisit⟩ :=
      visit_spec hopen hkeyed (hreach.isContaining hkind) (Bool.eq_false_iff.mpr hvisited)
    refine ⟨_, hvisit, ?_, ?_, ?_, fun e he => h.waiting e (List.mem_cons_of_mem _ he), ?_, ?_, ?_⟩
    · have := h.started
      simp only [List.mem_cons, List.mem_append, List.not_mem_nil] at this ⊢
      grind
    · exact List.forall_mem_append.mpr
        ⟨h.visited, List.forall_mem_singleton.mpr ⟨hreach, by omega⟩⟩
    · refine List.pairwise_append.mpr
        ⟨h.ordered, List.pairwise_singleton _ _, fun a ha => List.forall_mem_singleton.mpr ⟨?_, ?_⟩⟩
      · have hbefore := (h.visited a ha).2
        omega
      · intro hsame
        exact hvisited (List.any_eq_true.mpr ⟨a, ha, beq_iff_eq.mpr hsame⟩)
    · refine List.forall_mem_append.mpr ⟨h.next, fun upper hupper => ?_⟩
      have hbelow := (huppers upper).mp hupper
      -- what is found is one level higher
      exact ⟨hreach.tail hbelow, hbelow.level_eq.trans hlevel⟩
    · intro lower hlower upper hbelow
      rw [List.mem_append, List.mem_singleton] at hlower
      simp only [List.mem_append, List.mem_singleton]
      rcases hlower with hlower | rfl
      · have := h.closed lower hlower upper hbelow
        rw [List.mem_cons] at this
        grind
      · exact .inr (.inr (.inr ((huppers upper).mpr hbelow)))
    · intro reference
      rw [hdangling, h.dangling, List.mem_append, List.mem_singleton, or_and_right]
      refine or_congr_right (and_congr_right fun hholder => ?_)
      rw [hholder]

/-- **One level** keeps the invariant: after it everything found before has been visited. -/
theorem climbs_foldlM_visit :
    ∀ {frontier walk}, store.Climbs start level walk frontier →
      ∃ walk', frontier.foldlM store.visit walk = .ok walk' ∧
        store.Climbs start level walk' [] := by
  intro frontier
  induction frontier with
  | nil => exact fun h => ⟨_, rfl, h⟩
  | cons entity frontier ih =>
    intro walk h
    obtain ⟨walk', hwalk', h'⟩ := climbs_visit hopen hkeyed hadmits hkind h
    obtain ⟨last, hlast, hclimbs⟩ := ih h'
    exact ⟨last, by rw [List.foldlM_cons, hwalk']; exact hlast, hclimbs⟩

/-- **Any number of levels** keep the invariant. -/
theorem climbs_walkLevels (levels : Nat) :
    ∀ {level walk}, store.Climbs start level walk [] →
      ∃ walk', store.walkLevels levels walk = .ok walk' ∧
        store.Climbs start (level + levels) walk' [] := by
  induction levels with
  | zero => exact fun h => ⟨_, rfl, h⟩
  | succ levels ih =>
    intro level walk h
    -- what was found on the level before is what is to be visited now
    have hfound : store.Climbs start (level + 1) { walk with next := [] } walk.next :=
      { started := by simpa using h.started
        visited := fun entity hentity => (h.visited entity hentity).imp_right Nat.lt_succ_of_lt
        ordered := h.ordered
        waiting := fun entity hentity => by simpa using h.next entity hentity
        next := by simp
        closed := fun lower hlower upper hbelow => by simpa using h.closed lower hlower upper hbelow
        dangling := h.dangling }
    obtain ⟨walk', hwalk', h'⟩ := climbs_foldlM_visit hopen hkeyed hadmits hkind hfound
    obtain ⟨last, hlast, hclimbs⟩ := ih h'
    refine ⟨last, by rw [walkLevels, hwalk']; exact hlast, ?_⟩
    rwa [Nat.add_right_comm, Nat.add_assoc] at hclimbs

/-- **Four levels are enough.** The walk from an object keeps the invariant, and it never fails,
whatever dangles. Then nothing is left to be visited. -/
theorem exists_climbs :
    ∃ walk, store.walk start = .ok walk ∧ store.Climbs start (start.level + maxLevels) walk [] ∧
      walk.next = [] := by
  have hfirst : store.Climbs start start.level { next := [start] } [] :=
    { started := by simp
      visited := by simp
      ordered := .nil
      waiting := by simp
      next := fun entity hentity => by
        obtain rfl := List.mem_singleton.mp hentity
        exact ⟨.refl, rfl⟩
      closed := by simp
      dangling := by simp }
  obtain ⟨walk, hwalk, h⟩ := climbs_walkLevels hopen hkeyed hadmits hkind maxLevels hfirst
  refine ⟨walk, hwalk, h, List.eq_nil_iff_forall_not_mem.mpr fun entity hentity => ?_⟩
  -- no object is on a level above the fourth
  have hlevel := (h.next entity hentity).2
  have hle := entity.level_le
  simp only [maxLevels] at hlevel
  omega

end Walk

/-- A walk with nothing left to be visited has visited **exactly what is reached**. -/
theorem Climbs.mem_visited_iff (h : store.Climbs start level walk []) (hdone : walk.next = []) :
    entity ∈ walk.visited ↔ store.Reaches start entity := by
  refine ⟨fun hentity => (h.visited entity hentity).1, fun hreach => ?_⟩
  induction hreach with
  | refl => simpa [hdone] using h.started
  | tail _ hbelow ih => simpa [hdone] using h.closed _ ih _ hbelow

/-- **A walk visits exactly what is reached upwards** from a stored object. -/
theorem exists_walk (hopen : store.isOpen = true) (hkeyed : store.IsKeyed)
    (hstart : start ∈ store.entities) (hkind : start.kind.isContaining) :
    ∃ walk, store.walk start = .ok walk ∧
      ∀ entity, entity ∈ walk.visited ↔ store.Reaches start entity := by
  obtain ⟨walk, hwalk, h, hdone⟩ :=
    exists_climbs hopen hkeyed (hkeyed.admits hstart hkind) hkind
  exact ⟨walk, hwalk, fun entity => h.mem_visited_iff hdone⟩

end Store

end Clearance
