import ManuscriptReach.Batch.Summary
import ManuscriptReach.Manifest
import ManuscriptReach.Number.Fixed

/-!
# Results for readers

The lines that commands show when they are not asked for JSON.
-/

namespace ManuscriptReach

/-- What stands where there is nothing to show. -/
def nothingShown : String := "-"

/-- A number in decimal digits, filled up with spaces in front. -/
def showCount (width n : Nat) : String := padStart ' ' width (toString n)

namespace Tables

/-- The spread of the middle of a token, if it has a middle. -/
def middleSpread? (t : Tables) (d : Decomposition) : Option Nat :=
  (d.parts?.filter Morphology.hasMiddle).map fun m ↦ t.spreads.spread m.middle

/-- What is shown of the class of a middle with a given spread. -/
def showSpread (t : Tables) (spread : Nat) : String :=
  "  [" ++ (MiddleClass.ofSpread t.settings.restrictedSpread spread).name ++ " spread " ++
    toString spread ++ "]"

/-- What is shown of a decomposition. -/
def showDecomposition (t : Tables) (d : Decomposition) : String :=
  match d with
  | .infrastructure => "infrastructure"
  | .invalid => "invalid"
  | .parsed m =>
    m.marker ++ (if m.isExtended then " (" ++ m.family ++ ")" else "") ++ " | " ++
      (if m.hasMiddle then m.middle else nothingShown) ++ " | " ++
      m.suffix.getD nothingShown ++ ((t.middleSpread? d).map t.showSpread).getD ""

/-- The line on a token. -/
def tokenLine (t : Tables) (token : String) : String :=
  padEnd 12 token ++ " " ++ t.showDecomposition (t.markers.decompose token)

/-- The lines on a widening of the legality table. -/
def violationLines (vs : List LegalityViolation) : List String :=
  if vs.isEmpty then ["  legality is monotone across the zone ordering"]
  else
    ("WARN legality widens " ++ toString vs.length ++ " times along the zone ordering:") ::
      vs.map fun v ↦ "  " ++ padEnd 10 v.middle ++ " legal in " ++ v.later ++ " but not " ++ v.earlier

/-- The lines on tables. -/
def checkLines (t : Tables) : List String :=
  ["OK " ++ t.describe, "  fingerprint: " ++ (Fingerprint.ofTables t).hash,
    "  zones:       " ++ " > ".intercalate t.zones.labels,
    "  floor:       " ++ toString t.classes.floor.size ++ " kernel/atomic classes"] ++
    violationLines t.violations

end Tables

namespace Report

/-- The texts of a set side by side. -/
def showSet (s : StringSet) : String := " ".intercalate s.toList

/-- The line on a zone. -/
def zoneLine (z : ZoneFigures) : String :=
  "  zone " ++ padEnd 6 z.zone ++ "  legal " ++ showCount 4 z.legalSize ++ "  classes " ++
    showCount 2 z.reachableCount

/-- The lines on the intermediate figures. -/
def diagnosticLines (d : Diagnostics) : List String :=
  ["  middles:      " ++ showSet d.bundle.middles, "  families:     " ++ showSet d.bundle.families,
    "  restricted:   " ++ showSet d.partition.restricted,
    "  universal:    " ++ showSet d.partition.universal,
    "  unknown:      " ++ showSet d.partition.unknown] ++
    (if d.invalidTokens = [] then [] else ["  invalid:      " ++ " ".intercalate d.invalidTokens]) ++
    ["  folios:       " ++ toString d.compatible.length ++ " (" ++ " ".intercalate d.compatible ++ ")",
      "  vocabulary:   " ++ toString d.effectiveSize] ++
    d.zones.map zoneLine ++ [""]

/-- The lines on an entry. -/
def lines (r : Report) : List String :=
  ("Entry " ++ r.entryId) :: r.diagnostics.elim [] diagnosticLines ++
    r.verdicts.map fun v ↦ "  " ++ padEnd 12 v.target ++ " " ++ v.status.name

end Report

namespace Summary

/-- The line on a check. -/
def checkLine (c : ExpectationCheck) : String :=
  "  " ++ (if c.passed then "PASS " else "FAIL ") ++ c.name ++ " = " ++ fixedText 2 c.observed ++
    " (expected " ++ fixedText 2 c.expected.low ++ "..=" ++ fixedText 2 c.expected.high ++ ")"

/-- The lines on a run. -/
def lines (s : Summary) (m : Manifest) : List String :=
  ["OK " ++ toString s.entries ++ " entries, " ++ toString m.distinctRestricted ++
      " distinct restricted sets, " ++
      m.stamp.elim nothingShown (fun stamp ↦ toString stamp.milliseconds) ++ "ms",
    "  run:     " ++ m.stamp.elim nothingShown RunStamp.id,
    "  tables:  " ++ m.tables.short?.getD nothingShown, "  output:  " ++ m.output.hash, "", "Labels"] ++
  (ReachStatus.all.map fun status ↦
    "  " ++ padEnd 12 status.name ++ " " ++ toString (s.labels.get status)) ++
  ["", "Compatible folios"] ++
  (s.compatibleHistogram.toList.map fun p ↦
    "  " ++ showCount 4 p.1 ++ " folios: " ++ toString p.2) ++
  ["  mean: " ++ fixedText 2 s.compatibleMean,
    "  closed entries: " ++ toString s.closedEntries ++ ", unrestricted entries: " ++
      toString s.unrestrictedEntries, "", "Effective vocabulary",
    "  min " ++ toString s.effectiveVocabulary.least ++ "  mean " ++
      fixedText 1 s.effectiveVocabulary.mean ++ "  max " ++ toString s.effectiveVocabulary.greatest,
    "", "Mean reachable classes"] ++
  (s.zones.map fun z ↦ "  " ++ padEnd 6 z.zone ++ " " ++ fixedText 1 z.meanReachable) ++
  (if s.widenedEntries = 0 then []
    else ["", "WARN " ++ toString s.widenedEntries ++ " entries with widening zone vocabularies"]) ++
  (if s.expectations.isEmpty then [] else "" :: "Expectations" :: s.expectations.map checkLine)

end Summary

end ManuscriptReach
