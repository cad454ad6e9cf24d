import ManuscriptReach.Entry

/-!
# Reports

The report of an entry states the verdicts on all targets, and on request the
intermediate figures.
-/

namespace ManuscriptReach

/-- The figures of one zone. -/
structure ZoneFigures where
  /-- The zone's label. -/
  zone : String
  /-- The size of the vocabulary that is legal in the zone. -/
  legalSize : Nat
  /-- The number of classes reachable in the zone. -/
  reachableCount : Nat
deriving DecidableEq

/-- The intermediate figures of an entry. -/
structure Diagnostics where
  /-- The entry's bundle. -/
  bundle : Bundle
  /-- Its middles, filed under their classes. -/
  partition : Partition
  /-- The tokens that no marker begins, each once. -/
  invalidTokens : List String
  /-- How many tokens are structural. -/
  infrastructureTokens : Nat
  /-- The ids of the compatible folios, in catalog order. -/
  compatible : List String
  /-- The size of the effective vocabulary. -/
  effectiveSize : Nat
  /-- The figures of every zone, in order. -/
  zones : List ZoneFigures
deriving DecidableEq

/-- What is written for one entry. -/
structure Report where
  /-- The entry's name. -/
  entryId : String
  /-- One verdict for each target, in catalog order. -/
  verdicts : List Verdict
  /-- The intermediate figures, when they were asked for. -/
  diagnostics : Option Diagnostics
deriving DecidableEq

namespace Report

/-- The status of the first verdict on a target. -/
def statusOf? (r : Report) (target : String) : Option ReachStatus :=
  (r.verdicts.find? fun v ↦ v.target == target).map Verdict.status

/-- How many verdicts have a status. -/
def count (r : Report) (status : ReachStatus) : Nat :=
  r.verdicts.countP fun v ↦ v.status == status

end Report

namespace Tables

/-- The figures of every zone; all are zero when nothing is reachable anywhere. -/
def zoneFigures (t : Tables) : Reachability → List ZoneFigures
  | .closed => t.zones.labels.map fun z ↦ ⟨z, 0, 0⟩
  | .opened zs => zs.map fun z ↦ ⟨z.zone, z.legal.size, z.reachable.size⟩

/-- The intermediate figures of an outcome. -/
def diagnostics (t : Tables) (o : Outcome) : Diagnostics where
  bundle := o.sorting.aggregate.bundle
  partition := o.sorting.partition
  invalidTokens := o.sorting.aggregate.invalidTokens
  infrastructureTokens := o.sorting.aggregate.infrastructureTokens
  compatible := o.propagation.compatible
  effectiveSize := o.propagation.effective.size
  zones := t.zoneFigures o.propagation.reachability

/-- The report on an outcome. -/
def report (t : Tables) (withDiagnostics : Bool) (o : Outcome) : Report where
  entryId := o.id
  verdicts := o.propagation.verdicts
  diagnostics := if withDiagnostics then some (t.diagnostics o) else none

end Tables

end ManuscriptReach
