import ManuscriptReach.Morphology.Markers
import ManuscriptReach.Partition
import ManuscriptReach.Bundle
import ManuscriptReach.Zone.Legality
import ManuscriptReach.Class.Catalog
import ManuscriptReach.Target
import ManuscriptReach.Settings

/-!
# Reference tables

All tables of one run, checked on their own and against each other.  Nothing in
them changes while entries are processed.
-/

namespace ManuscriptReach

/-- The tables of one run. -/
structure Tables where
  /-- Markers, suffixes and infrastructure tokens. -/
  markers : Markers
  /-- The context folios. -/
  folios : FolioCatalog
  /-- The spreads of middles. -/
  spreads : SpreadTable
  /-- The zones in order. -/
  zones : ZoneOrder
  /-- Legality by zone. -/
  legality : Legality
  /-- The instruction classes. -/
  classes : ClassCatalog
  /-- The targets. -/
  targets : TargetCatalog
  /-- The settings. -/
  settings : Settings
  /-- Legality speaks of these zones only. -/
  legality_names : legality.Names zones

namespace Tables

/-- How many rows each table has. -/
def describe (t : Tables) : String :=
  ", ".intercalate <|
    [(t.markers.families.size, "prefix families"), (t.markers.suffixes.size, "suffixes"),
      (t.folios.folios.length, "folios"), (t.spreads.counts.size, "indexed middles"),
      (t.zones.zones.length, "zones"), (t.legality.entries.size, "legality entries"),
      (t.classes.classes.length, "classes"), (t.targets.targets.length, "targets")].map
    fun p ↦ toString p.1 ++ " " ++ p.2

/-- Every place where the legality table widens along the zone order. -/
def violations (t : Tables) : List LegalityViolation := t.legality.violations t.zones

end Tables

end ManuscriptReach
