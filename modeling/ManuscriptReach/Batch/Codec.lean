import ManuscriptReach.Batch.Summary
import ManuscriptReach.Settings.Codec
import ManuscriptReach.Json.Writer
import ManuscriptReach.Json.Node

/-!
# Summaries in documents
-/

namespace ManuscriptReach

variable {ν : Type} [Node ν]

namespace Tally

/-- A tally as an object. -/
def toJson (t : Tally) : Json :=
  .record [("reachable", .ofNat t.reachable), ("conditional", .ofNat t.conditional),
    ("unreachable", .ofNat t.unreachable)]

/-- Reads a tally. -/
def read? (x : ν) : Option Tally := do
  let [reachable, conditional, unreachable] ←
    Node.fields? ["reachable", "conditional", "unreachable"] x | none
  return ⟨← Node.required Node.natural? reachable, ← Node.required Node.natural? conditional,
    ← Node.required Node.natural? unreachable⟩

end Tally

namespace TargetSummary

/-- The verdicts on a target as an object. -/
def toJson (t : TargetSummary) : Json :=
  .record [("target", .ofString t.target), ("labels", t.labels.toJson)]

/-- Reads the verdicts on a target. -/
def read? (x : ν) : Option TargetSummary := do
  let [target, labels] ← Node.fields? ["target", "labels"] x | none
  return ⟨← Node.required Node.text? target, ← Node.required Tally.read? labels⟩

end TargetSummary

namespace SizeStatistics

/-- The statistics of sizes as an object. -/
def toJson (s : SizeStatistics) : Json :=
  .record [("min", .ofNat s.least), ("mean", .ofFloat s.mean), ("max", .ofNat s.greatest)]

/-- Reads the statistics of sizes. -/
def read? (x : ν) : Option SizeStatistics := do
  let [least, mean, greatest] ← Node.fields? ["min", "mean", "max"] x | none
  return ⟨← Node.required Node.natural? least, ← Node.required Node.float? mean,
    ← Node.required Node.natural? greatest⟩

end SizeStatistics

namespace ZoneSummary

/-- The mean of a zone as an object. -/
def toJson (z : ZoneSummary) : Json :=
  .record [("zone", .ofString z.zone), ("mean_reachable_classes", .ofFloat z.meanReachable)]

/-- Reads the mean of a zone. -/
def read? (x : ν) : Option ZoneSummary := do
  let [zone, mean] ← Node.fields? ["zone", "mean_reachable_classes"] x | none
  return ⟨← Node.required Node.text? zone, ← Node.required Node.float? mean⟩

end ZoneSummary

namespace ExpectationCheck

/-- A check as an object. -/
def toJson (c : ExpectationCheck) : Json :=
  .record [("name", .ofString c.name), ("expected", c.expected.toJson),
    ("observed", .ofFloat c.observed), ("passed", .bool c.passed)]

/-- Reads a check. -/
def read? (x : ν) : Option ExpectationCheck := do
  let [name, expected, observed, passed] ←
    Node.fields? ["name", "expected", "observed", "passed"] x | none
  return ⟨← Node.required Node.text? name, ← Node.required Band.read? expected,
    ← Node.required Node.float? observed, ← Node.required Node.bool? passed⟩

end ExpectationCheck

/-- A histogram as an object with numbers for names. -/
def histogramToJson (h : SortedMap Nat Nat) : Json :=
  .record (h.toList.map fun p ↦ (toString p.1, .ofNat p.2))

/-- Reads a histogram. -/
def readHistogram? (x : ν) : Option (SortedMap Nat Nat) := do
  let ps ← (← Node.numbered? x).mapM fun m ↦ do return (m.1, ← Node.natural? m.2)
  return .ofList ps

namespace Summary

/-- A summary as an object. -/
def toJson (s : Summary) : Json :=
  .record [("entries", .ofNat s.entries), ("labels", s.labels.toJson),
    ("targets", .array (s.targets.map TargetSummary.toJson)),
    ("compatible_folio_histogram", histogramToJson s.compatibleHistogram),
    ("compatible_folios_mean", .ofFloat s.compatibleMean),
    ("effective_vocabulary", s.effectiveVocabulary.toJson),
    ("closed_entries", .ofNat s.closedEntries),
    ("unrestricted_entries", .ofNat s.unrestrictedEntries),
    ("invalid_tokens", .ofNat s.invalidTokens), ("zones", .array (s.zones.map ZoneSummary.toJson)),
    ("monotonicity_violations", .ofNat s.widenedEntries),
    ("expectations", .array (s.expectations.map ExpectationCheck.toJson))]

/-- Reads a summary. -/
def read? (x : ν) : Option Summary := do
  let [entries, labels, targets, histogram, mean, effective, closed, unrestricted, invalid, zones,
      widened, expectations] ←
    Node.fields? ["entries", "labels", "targets", "compatible_folio_histogram",
      "compatible_folios_mean", "effective_vocabulary", "closed_entries", "unrestricted_entries",
      "invalid_tokens", "zones", "monotonicity_violations", "expectations"] x | none
  return {
    entries := ← Node.required Node.natural? entries
    labels := ← Node.required Tally.read? labels
    targets := ← Node.required (Node.list? TargetSummary.read?) targets
    compatibleHistogram := ← Node.required readHistogram? histogram
    compatibleMean := ← Node.required Node.float? mean
    effectiveVocabulary := ← Node.required SizeStatistics.read? effective
    closedEntries := ← Node.required Node.natural? closed
    unrestrictedEntries := ← Node.required Node.natural? unrestricted
    invalidTokens := ← Node.required Node.natural? invalid
    zones := ← Node.required (Node.list? ZoneSummary.read?) zones
    widenedEntries := ← Node.required Node.natural? widened
    expectations := ← Node.required (Node.list? ExpectationCheck.read?) expectations }

end Summary

end ManuscriptReach
