import ManuscriptReach.Tables

/-!
# Propagation

Everything after the partition of an entry's middles depends on its restricted
middles alone: the folios that contain them all, the union of their vocabularies,
the part of it that is legal in each zone, the classes whose requirement that part
meets, and one verdict for each target.

When no folio contains all restricted middles the entry is closed, and every
target is unreachable.
-/

namespace ManuscriptReach

/-- What is legal and reachable in one zone. -/
structure ZoneReach where
  /-- The zone's label. -/
  zone : String
  /-- The part of the effective vocabulary that is legal in the zone. -/
  legal : StringSet
  /-- The classes whose requirement it meets. -/
  reachable : ClassSet
deriving DecidableEq

/-- What is reachable in the zones. -/
inductive Reachability where
  /-- No folio is compatible: nothing is reachable anywhere. -/
  | closed
  /-- Some folio is compatible: one record for each zone, in order. -/
  | opened (zones : List ZoneReach)
deriving DecidableEq

namespace Reachability

/-- The records of the zones, none when closed. -/
def zones : Reachability → List ZoneReach
  | closed => []
  | opened zs => zs

/-- Whether no folio is compatible. -/
def isClosed : Reachability → Bool
  | closed => true
  | opened _ => false

/-- The status of a footprint. -/
def status (r : Reachability) (footprint : ClassSet) : ReachStatus :=
  .ofZones footprint (r.zones.map ZoneReach.reachable)

end Reachability

/-- What follows from a set of restricted middles. -/
structure Propagation where
  /-- The ids of the compatible folios, in catalog order. -/
  compatible : List String
  /-- The union of their vocabularies. -/
  effective : StringSet
  /-- What is reachable in the zones. -/
  reachability : Reachability
  /-- Where the legal vocabulary widens along the zones. -/
  widenings : List Widening
  /-- One verdict for each target, in catalog order. -/
  verdicts : List Verdict
deriving DecidableEq

namespace Tables

/-- What is legal and reachable in each zone, given the effective vocabulary. -/
def zoneReaches (t : Tables) (effective : StringSet) : List ZoneReach :=
  (t.legality.vocabularies t.zones effective).map fun v ↦
    ⟨v.zone, v.legal, t.classes.reachable v.legal⟩

/-- The verdicts on all targets. -/
def verdicts (t : Tables) (r : Reachability) : List Verdict :=
  t.targets.targets.map fun g ↦ ⟨g.id, r.status g.footprint⟩

/-- What follows from a set of restricted middles. -/
def propagate (t : Tables) (restricted : StringSet) : Propagation :=
  let compatible := t.folios.compatible restricted
  if compatible.isEmpty then
    ⟨[], ∅, .closed, [], t.verdicts .closed⟩
  else
    let effective := SortedSet.unions (compatible.map Folio.vocabulary)
    let reachability := Reachability.opened (t.zoneReaches effective)
    ⟨compatible.map Folio.id, effective, reachability,
      ManuscriptReach.widenings (t.legality.vocabularies t.zones effective),
      t.verdicts reachability⟩

end Tables

end ManuscriptReach
