import ManuscriptReach.Settings
import ManuscriptReach.Json.Node

/-!
# Bands and expectations in documents
-/

namespace ManuscriptReach

variable {ν : Type} [Node ν]

namespace Band

/-- A band as the list of its two ends. -/
def toJson (b : Band) : Json := .array [.ofFloat b.low, .ofFloat b.high]

/-- Reads a band from a list of two numbers. -/
def read? (x : ν) : Option Band := do
  let [low, high] ← Node.items? x | none
  return ⟨← Node.float? low, ← Node.float? high⟩

end Band

namespace Expectations

/-- Expectations as an object, with null for a band that is not expected. -/
def toJson (e : Expectations) : Json :=
  .record [("compatible_folios_mean", .nullable Band.toJson e.compatibleFolios),
    ("effective_vocabulary_mean", .nullable Band.toJson e.effectiveVocabulary)]

/-- Reads expectations. -/
def read? (x : ν) : Option Expectations := do
  let [compatible, effective] ←
    Node.fields? ["compatible_folios_mean", "effective_vocabulary_mean"] x | none
  return ⟨← Node.optional Band.read? compatible, ← Node.optional Band.read? effective⟩

end Expectations

end ManuscriptReach
