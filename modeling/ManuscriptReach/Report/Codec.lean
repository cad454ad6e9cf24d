import ManuscriptReach.Report
import ManuscriptReach.Json.Writer
import ManuscriptReach.Json.Node

/-!
# Reports in documents

Every record of a report is an object with its fields in a fixed order.  Invalid
tokens are left out when there are none, and diagnostics when there are none.
-/

namespace ManuscriptReach

variable {ν α : Type} [Node ν]

/-- Reads the alternative that a value names, among those that may be named. -/
def readWord? (name : α → String) (alternatives : List α) (x : ν) : Option α := do
  let word ← Node.word? x
  alternatives.find? fun a ↦ name a == word

/-- Reads a class of middles. -/
def MiddleClass.read? : ν → Option MiddleClass :=
  readWord? MiddleClass.name [.restricted, .universal, .unknown]

/-- A class of middles as its name. -/
def MiddleClass.toJson (c : MiddleClass) : Json := .ofString c.name

/-- Reads a status. -/
def ReachStatus.read? : ν → Option ReachStatus := readWord? ReachStatus.name ReachStatus.all

/-- A status as its name. -/
def ReachStatus.toJson (s : ReachStatus) : Json := .ofString s.name

namespace Bundle

/-- A bundle as an object. -/
def toJson (b : Bundle) : Json :=
  .record [("middles", .ofStringSet b.middles), ("prefix_families", .ofStringSet b.families)]

/-- Reads a bundle. -/
def read? (x : ν) : Option Bundle := do
  let [middles, families] ← Node.fields? ["middles", "prefix_families"] x | none
  return ⟨← Node.required Node.textSet? middles, ← Node.required Node.textSet? families⟩

end Bundle

namespace Partition

/-- A partition as an object. -/
def toJson (p : Partition) : Json :=
  .record [("restricted", .ofStringSet p.restricted), ("universal", .ofStringSet p.universal),
    ("unknown", .ofStringSet p.unknown)]

/-- Reads a partition. -/
def read? (x : ν) : Option Partition := do
  let [restricted, universal, unknown] ← Node.fields? ["restricted", "universal", "unknown"] x
    | none
  return ⟨← Node.required Node.textSet? restricted, ← Node.required Node.textSet? universal,
    ← Node.required Node.textSet? unknown⟩

end Partition

namespace Verdict

/-- A verdict as an object. -/
def toJson (v : Verdict) : Json :=
  .record [("target", .ofString v.target), ("status", v.status.toJson)]

/-- Reads a verdict. -/
def read? (x : ν) : Option Verdict := do
  let [target, status] ← Node.fields? ["target", "status"] x | none
  return ⟨← Node.required Node.text? target, ← Node.required ReachStatus.read? status⟩

end Verdict

namespace ZoneFigures

/-- The figures of a zone as an object. -/
def toJson (z : ZoneFigures) : Json :=
  .record [("zone", .ofString z.zone), ("legal_vocabulary_size", .ofNat z.legalSize),
    ("reachable_classes", .ofNat z.reachableCount)]

/-- Reads the figures of a zone. -/
def read? (x : ν) : Option ZoneFigures := do
  let [zone, legal, reachable] ←
    Node.fields? ["zone", "legal_vocabulary_size", "reachable_classes"] x | none
  return ⟨← Node.required Node.text? zone, ← Node.required Node.natural? legal,
    ← Node.required Node.natural? reachable⟩

end ZoneFigures

namespace Diagnostics

/-- Diagnostics as an object; invalid tokens are left out when there are none. -/
def toJson (d : Diagnostics) : Json :=
  .record <|
    [("bundle", d.bundle.toJson), ("partition", d.partition.toJson)] ++
    (if d.invalidTokens = [] then [] else [("invalid_tokens", .ofStrings d.invalidTokens)]) ++
    [("infrastructure_tokens", .ofNat d.infrastructureTokens),
      ("compatible_folios", .ofStrings d.compatible),
      ("effective_vocabulary_size", .ofNat d.effectiveSize),
      ("zones", .array (d.zones.map ZoneFigures.toJson))]

/-- Reads diagnostics. -/
def read? (x : ν) : Option Diagnostics := do
  let [bundle, partition, invalid, infrastructure, compatible, effective, zones] ←
    Node.fields? ["bundle", "partition", "invalid_tokens", "infrastructure_tokens",
      "compatible_folios", "effective_vocabulary_size", "zones"] x | none
  return {
    bundle := ← Node.required Bundle.read? bundle
    partition := ← Node.required Partition.read? partition
    invalidTokens := ← Node.withDefault [] Node.texts? invalid
    infrastructureTokens := ← Node.required Node.natural? infrastructure
    compatible := ← Node.required Node.texts? compatible
    effectiveSize := ← Node.required Node.natural? effective
    zones := ← Node.required (Node.list? ZoneFigures.read?) zones }

end Diagnostics

namespace Report

/-- A report as an object; diagnostics are left out when there are none. -/
def toJson (r : Report) : Json :=
  .record <|
    [("entry_id", .ofString r.entryId), ("verdicts", .array (r.verdicts.map Verdict.toJson))] ++
    Json.optional "diagnostics" Diagnostics.toJson r.diagnostics

/-- Reads a report. -/
def read? (x : ν) : Option Report := do
  let [entryId, verdicts, diagnostics] ← Node.fields? ["entry_id", "verdicts", "diagnostics"] x
    | none
  return {
    entryId := ← Node.required Node.text? entryId
    verdicts := ← Node.required (Node.list? Verdict.read?) verdicts
    diagnostics := ← Node.optional Diagnostics.read? diagnostics }

/-- The report as one line of compact JSON, without a line end. -/
def line (r : Report) : String := r.toJson.compact

/-- Reads a report from a line of JSON. -/
def ofLine? (s : String) : Option Report := Json.readAs? read? s

end Report

end ManuscriptReach
