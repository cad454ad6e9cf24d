import ManuscriptReach.Zone.Legality
import ManuscriptReach.Json.Node

/-!
# Widening zones in documents
-/

namespace ManuscriptReach

variable {ν : Type} [Node ν]

namespace LegalityViolation

/-- A violation as an object. -/
def toJson (v : LegalityViolation) : Json :=
  .record [("middle", .ofString v.middle), ("earlier", .ofString v.earlier),
    ("later", .ofString v.later)]

/-- Reads a violation. -/
def read? (x : ν) : Option LegalityViolation := do
  let [middle, earlier, later] ← Node.fields? ["middle", "earlier", "later"] x | none
  return ⟨← Node.required Node.text? middle, ← Node.required Node.text? earlier,
    ← Node.required Node.text? later⟩

end LegalityViolation

namespace Widening

/-- A widening as an object. -/
def toJson (w : Widening) : Json :=
  .record [("earlier", .ofString w.earlier), ("later", .ofString w.later),
    ("widened", .ofStringSet w.widened)]

/-- Reads a widening. -/
def read? (x : ν) : Option Widening := do
  let [earlier, later, widened] ← Node.fields? ["earlier", "later", "widened"] x | none
  return ⟨← Node.required Node.text? earlier, ← Node.required Node.text? later,
    ← Node.required Node.textSet? widened⟩

end Widening

end ManuscriptReach
