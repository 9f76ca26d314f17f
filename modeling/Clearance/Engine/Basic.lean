import Clearance.Condition.Filter

/-!
# Engines

A store does not search its rows by itself, it hands a filter over to an **engine**. What a
filter says of a row is `Clearance.Filter.eval`. But an engine may have limits: it may refuse a
filter as a whole, for its size say, or give up at a row that holds what it cannot look into.
When it does is its own affair, and nothing is assumed about it here. What a store finds is
told for the case that its engine *carries out* the search (`Clearance.Engine.CarriesOut`).
-/

namespace Clearance

/-- An **engine**, by the ways in which its searches fail. One for which nothing is said
carries out every search. -/
structure Engine where
  /-- Why a filter is refused, whatever the rows. -/
  refusal? : Filter → Option Fault := fun _ => none
  /-- Why a search with a filter is given up at the row of an object. -/
  faultOn? : Filter → Entity → Option Fault := fun _ _ => none

namespace Engine

/-- An engine **carries out** the search of some rows with a filter: it does not refuse the
filter, and it does not give up at any of the rows. -/
structure CarriesOut (engine : Engine) (filter : Filter) (rows : List Entity) : Prop where
  /-- The filter is not refused. -/
  accepted : engine.refusal? filter = none
  /-- The search is not given up. -/
  completed : ∀ row ∈ rows, engine.faultOn? filter row = none

/-- Why the search of some rows with a filter **fails**. The operands are handed over to their
carriers first, then the engine reads the filter, then it takes the operands, and last it goes
through the rows. -/
def fault? (engine : Engine) (filter : Filter) (rows : List Entity) : Option Fault :=
  if filter.refusals.contains .unstorable then some .unstorable
  else
    engine.refusal? filter <|> filter.refusals.head? <|>
      rows.findSome? (engine.faultOn? filter)

/-- A search fails unless all operands can be handed over and the engine carries it out. -/
theorem fault?_eq_none_iff {engine : Engine} {filter : Filter} {rows : List Entity} :
    engine.fault? filter rows = none ↔ filter.refusals = [] ∧ engine.CarriesOut filter rows := by
  have hcarries : engine.CarriesOut filter rows ↔
      engine.refusal? filter = none ∧ ∀ row ∈ rows, engine.faultOn? filter row = none :=
    ⟨fun h => ⟨h.accepted, h.completed⟩, fun h => ⟨h.1, h.2⟩⟩
  rw [fault?, hcarries]
  cases hrefusals : filter.refusals with
  | nil => simp
  | cons fault rest =>
    split <;> simp

end Engine

end Clearance
