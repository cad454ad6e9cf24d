import ManuscriptReach.Collection.SortedSet
import ManuscriptReach.Collection.Repeat
import ManuscriptReach.Tables.Fault

/-!
# Zones and their order

Processing runs through zones in a fixed order.  Each zone has a canonical label,
under which legality is looked up, so that several sub-zones can share one column.
-/

namespace ManuscriptReach

/-- A processing zone. -/
structure Zone where
  /-- The zone's own name. -/
  label : String
  /-- The name under which legality is looked up. -/
  canonical : String
deriving DecidableEq

/-- One or more zones in order, under different labels. -/
@[ext]
structure ZoneOrder where
  /-- The zones in order. -/
  zones : List Zone
  /-- There is a zone. -/
  zones_ne : zones ≠ []
  /-- No two zones share a label. -/
  labels_nodup : (zones.map Zone.label).Nodup

namespace ZoneOrder

/-- Checks that there is a zone and that the labels are pairwise different. -/
def ofList (zones : List Zone) : Except TableFault ZoneOrder :=
  if hne : zones = [] then .error .noZones
  else
    match h : firstRepeat? (zones.map Zone.label) with
    | some label => .error (.duplicateZone label)
    | none => .ok ⟨zones, hne, firstRepeat?_eq_none_iff.1 h⟩

/-- The labels in order. -/
def labels (o : ZoneOrder) : List String := o.zones.map Zone.label

/-- The canonical labels. -/
def canonicalLabels (o : ZoneOrder) : StringSet := .ofList (o.zones.map Zone.canonical)

end ZoneOrder

end ManuscriptReach
