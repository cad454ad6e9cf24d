import ManuscriptReach.Class.Set
import ManuscriptReach.Collection.Repeat
import ManuscriptReach.Tables.Fault

/-!
# Targets and verdicts

A target is a downstream page that needs a set of instruction classes, its
footprint.  A verdict says in how many zones all of them are reachable.
-/

namespace ManuscriptReach

/-- A downstream page and the classes it needs. -/
structure Target where
  /-- The name of the page. -/
  id : String
  /-- The classes it needs. -/
  footprint : ClassSet
deriving DecidableEq

/-- Targets in a fixed order, under different ids. -/
@[ext]
structure TargetCatalog where
  /-- The targets in order. -/
  targets : List Target
  /-- No two targets share an id. -/
  ids_nodup : (targets.map Target.id).Nodup

/-- Checks that the ids are pairwise different. -/
def TargetCatalog.ofList (targets : List Target) : Except TableFault TargetCatalog :=
  match h : firstRepeat? (targets.map Target.id) with
  | some id => .error (.duplicateTarget id)
  | none => .ok ⟨targets, firstRepeat?_eq_none_iff.1 h⟩

/-- In how many zones a footprint is reachable. -/
inductive ReachStatus where
  /-- In every zone. -/
  | reachable
  /-- In some zones but not in all. -/
  | conditional
  /-- In no zone. -/
  | unreachable
deriving DecidableEq

namespace ReachStatus

/-- Every status, the most favourable first. -/
def all : List ReachStatus := [reachable, conditional, unreachable]

/-- The name of the status in reports. -/
def name : ReachStatus → String
  | reachable => "REACHABLE"
  | conditional => "CONDITIONAL"
  | unreachable => "UNREACHABLE"

/-- How far the status is from `reachable`. -/
def rank : ReachStatus → Nat
  | reachable => 0
  | conditional => 1
  | unreachable => 2

/-- The status of a footprint when these are the classes reachable in the zones. -/
def ofZones (footprint : ClassSet) (zones : List ClassSet) : ReachStatus :=
  let fits := zones.countP fun z ↦ decide (footprint ⊆ z)
  if fits = 0 then unreachable else if fits = zones.length then reachable else conditional

/-- A footprint is unreachable when it fits no zone. -/
theorem ofZones_eq_unreachable_iff {footprint : ClassSet} {zones : List ClassSet} :
    ofZones footprint zones = unreachable ↔ ∀ z ∈ zones, ¬ footprint ⊆ z := by
  have none : zones.countP (fun z ↦ decide (footprint ⊆ z)) = 0 ↔ ∀ z ∈ zones, ¬ footprint ⊆ z := by
    simp [List.countP_eq_zero]
  rw [← none, ofZones]
  split
  next h => simp only [h]
  next h => split <;> simp only [reduceCtorEq, h]

/-- A footprint is reachable when it fits every zone.  Without a zone it is unreachable instead. -/
theorem ofZones_eq_reachable_iff {footprint : ClassSet} {zones : List ClassSet} (h : zones ≠ []) :
    ofZones footprint zones = reachable ↔ ∀ z ∈ zones, footprint ⊆ z := by
  have all : zones.countP (fun z ↦ decide (footprint ⊆ z)) = zones.length ↔
      ∀ z ∈ zones, footprint ⊆ z := by
    simp [List.countP_eq_length]
  have pos : zones.length ≠ 0 := fun e ↦ h (List.length_eq_zero_iff.1 e)
  rw [← all, ofZones]
  split
  next hz => simp only [reduceCtorEq, hz, pos.symm]
  next hz =>
    split
    next hl => simp only [hl]
    next hl => simp only [reduceCtorEq, hl]

/-- A footprint is conditional when it fits some zone but not all. -/
theorem ofZones_eq_conditional_iff {footprint : ClassSet} {zones : List ClassSet} (h : zones ≠ []) :
    ofZones footprint zones = conditional ↔
      (∃ z ∈ zones, footprint ⊆ z) ∧ ∃ z ∈ zones, ¬ footprint ⊆ z := by
  have none := @ofZones_eq_unreachable_iff footprint zones
  have all := @ofZones_eq_reachable_iff footprint zones h
  constructor
  · intro hc
    have some : ¬ ∀ z ∈ zones, ¬ footprint ⊆ z := fun e ↦ by simp [none.2 e] at hc
    have notAll : ¬ ∀ z ∈ zones, footprint ⊆ z := fun e ↦ by simp [all.2 e] at hc
    exact ⟨by simpa using some, by simpa using notAll⟩
  · rintro ⟨⟨z, hz, fits⟩, w, hw, fails⟩
    cases hs : ofZones footprint zones with
    | reachable => exact absurd (all.1 hs w hw) fails
    | conditional => rfl
    | unreachable => exact absurd fits (none.1 hs z hz)

end ReachStatus

/-- The status of one target. -/
structure Verdict where
  /-- The target's id. -/
  target : String
  /-- Its status. -/
  status : ReachStatus
deriving DecidableEq

end ManuscriptReach
