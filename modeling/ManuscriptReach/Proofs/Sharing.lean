import Mathlib.Data.Finset.Card
import ManuscriptReach.Batch

/-!
# Sharing propagations changes nothing

A batch that shares propagations puts every restricted set it meets into a
`SlotTable`, computes one propagation for each set in the table, and reads the
propagation of an entry at the slot of its set.  The outcomes are those of the plain
batch because reading at the slots undoes the table (`gather_assignAll`), whatever
repetitions there are.
-/

namespace ManuscriptReach

/-- Gathering a function's values at the keys gives its values at the elements of the list. -/
theorem gather_assignAll {α β : Type} [DecidableEq α] {t : SlotTable α} {xs : List α} {f : α → β}
    (h : ∀ i ∈ (t.assignAll xs).1, i < ((t.assignAll xs).2.keys.map f).length) :
    gather ((t.assignAll xs).2.keys.map f) (t.assignAll xs).1 h = xs.map f := by
  apply List.map_injective_iff.2 (Option.some_injective β)
  calc (gather ((t.assignAll xs).2.keys.map f) (t.assignAll xs).1 h).map some
      = ((t.assignAll xs).1.map fun i ↦ (t.assignAll xs).2.keys[i]?).map (Option.map f) := by
        rw [map_some_gather, List.map_map]
        exact List.map_congr_left fun i _ ↦ List.getElem?_map
    _ = (xs.map some).map (Option.map f) := by rw [SlotTable.map_getElem?_assignAll]
    _ = (xs.map f).map some := by
        rw [List.map_map, List.map_map]
        rfl

/-- A list has as many keys as it has different elements. -/
theorem length_keys_assignAll {α : Type} [DecidableEq α] (xs : List α) :
    (SlotTable.empty.assignAll xs).2.keys.length = xs.toFinset.card := by
  rw [← List.toFinset_card_of_nodup (SlotTable.nodup_keys _)]
  congr 1
  ext x
  simp [SlotTable.mem_keys_assignAll, SlotTable.empty]

namespace Tables

variable {t : Tables} {entries : List Entry}

theorem map_restricted_sorting (t : Tables) (entries : List Entry) :
    (entries.map t.sorting).map (fun s ↦ s.partition.restricted) = entries.map t.restricted := by
  rw [List.map_map]
  rfl

/-- A shared batch has the outcomes of the plain one. -/
theorem outcomes_runShared (t : Tables) (entries : List Entry) :
    (t.runShared entries).outcomes = entries.map t.outcome := by
  unfold runShared restrictedSlots
  simp only [gather_assignAll, map_restricted_sorting]
  induction entries with
  | nil => rfl
  | cons e es ih =>
    simp only [List.map_cons, List.zip_cons_cons, ih]
    rfl

/-- A shared batch computes one propagation for each different restricted set. -/
theorem computed_runShared (t : Tables) (entries : List Entry) :
    (t.runShared entries).computed = (entries.map t.restricted).toFinset.card := by
  change ((restrictedSlots (entries.map t.sorting)).2.keys.map t.propagate).length = _
  rw [List.length_map, restrictedSlots, map_restricted_sorting, length_keys_assignAll]

/-- Both batches have one outcome for each entry, which depends on that entry alone. -/
theorem outcomes_run (t : Tables) (shared : Bool) (entries : List Entry) :
    (t.run shared entries).outcomes = entries.map t.outcome := by
  cases shared with
  | false => rfl
  | true => exact outcomes_runShared t entries

/-- **Sharing propagations changes nothing.** -/
theorem run_shared (t : Tables) (entries : List Entry) :
    (∀ shared, (t.run shared entries).outcomes = entries.map fun e ↦
        ⟨e.id, t.sorting e, t.propagate (t.sorting e).partition.restricted⟩) ∧
      (restrictedSlots (entries.map t.sorting)).1.length = entries.length ∧
      (∀ i ∈ (restrictedSlots (entries.map t.sorting)).1,
        i < ((restrictedSlots (entries.map t.sorting)).2.keys.map t.propagate).length) ∧
      (∀ shared withDiagnostics, t.reports withDiagnostics (t.run shared entries) =
        entries.map fun e ↦ t.report withDiagnostics (t.outcome e)) ∧
      (∀ shared others, (t.run shared (entries ++ others)).outcomes =
        (t.run shared entries).outcomes ++ (t.run shared others).outcomes) ∧
      (t.run true entries).computed = (entries.map t.restricted).toFinset.card ∧
      (t.run false entries).computed = entries.length := by
  refine ⟨fun shared ↦ outcomes_run t shared entries, ?_,
    fun i ↦ lt_length_of_mem_restrictedSlots, fun shared withDiagnostics ↦ ?_,
    fun shared others ↦ ?_, computed_runShared t entries, rfl⟩
  · rw [restrictedSlots, SlotTable.length_assignAll, List.length_map, List.length_map]
  · rw [reports, outcomes_run, List.map_map]
    rfl
  · rw [outcomes_run, outcomes_run, outcomes_run, List.map_append]

end Tables

end ManuscriptReach
