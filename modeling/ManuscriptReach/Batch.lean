import ManuscriptReach.Collection.SlotTable
import ManuscriptReach.Report

/-!
# Batches

A batch is the list of outcomes of a list of entries.  Entries with the same
restricted middles have the same propagation, so it is enough to compute one for
each distinct set and to share it.
-/

namespace ManuscriptReach

/-- What a batch produced. -/
structure Batch where
  /-- The outcomes, in the order of the entries. -/
  outcomes : List Outcome
  /-- How many propagations were computed. -/
  computed : Nat
deriving DecidableEq

/-- Gives every sorting the slot of its restricted set among the distinct ones. -/
def restrictedSlots (sortings : List Sorting) : List Nat × SlotTable StringSet :=
  SlotTable.empty.assignAll (sortings.map fun s ↦ s.partition.restricted)

/-- What is computed once for each distinct restricted set has a value at every slot. -/
theorem lt_length_of_mem_restrictedSlots {β : Type} {f : StringSet → β} {sortings : List Sorting}
    {i : Nat} (h : i ∈ (restrictedSlots sortings).1) :
    i < ((restrictedSlots sortings).2.keys.map f).length := by
  rw [List.length_map]
  exact SlotTable.lt_length_of_mem_assignAll h

namespace Tables

/-- Computes every outcome on its own. -/
def runPlain (t : Tables) (entries : List Entry) : Batch :=
  ⟨entries.map t.outcome, entries.length⟩

/-- Computes one propagation for each distinct set of restricted middles. -/
def runShared (t : Tables) (entries : List Entry) : Batch :=
  let sortings := entries.map t.sorting
  let assigned := restrictedSlots sortings
  let propagations := assigned.2.keys.map t.propagate
  let shared := gather propagations assigned.1 fun _ ↦ lt_length_of_mem_restrictedSlots
  ⟨(entries.zip (sortings.zip shared)).map fun p ↦ ⟨p.1.id, p.2.1, p.2.2⟩, propagations.length⟩

/-- Runs a batch, sharing propagations or not. -/
def run (t : Tables) (shared : Bool) (entries : List Entry) : Batch :=
  if shared then t.runShared entries else t.runPlain entries

/-- The reports on a batch, in the order of the entries. -/
def reports (t : Tables) (withDiagnostics : Bool) (b : Batch) : List Report :=
  b.outcomes.map (t.report withDiagnostics)

end Tables

end ManuscriptReach
