import ManuscriptReach.Morphology.Decomposition
import ManuscriptReach.Json.Node

/-!
# Decompositions in documents

A decomposition is an object whose member `type` names the case; the parts of a
regular token stand beside it.  The form of a list is read as well, with the name
of the case first.
-/

namespace ManuscriptReach

namespace Morphology

/-- The members that state the parts of a token. -/
def members (m : Morphology) : List (String × Json) :=
  [("family", .ofString m.family), ("marker", .ofString m.marker), ("middle", .ofString m.middle)] ++
    Json.optional "suffix" Json.ofString m.suffix

/-- The parts of a token as an object. -/
def toJson (m : Morphology) : Json := .record m.members

/-- Reads the parts of a token. -/
def read? {ν : Type} [Node ν] (x : ν) : Option Morphology := do
  let [family, marker, middle, suffix] ← Node.fields? ["family", "marker", "middle", "suffix"] x
    | none
  return {
    family := ← Node.required Node.text? family
    marker := ← Node.required Node.text? marker
    middle := ← Node.required Node.text? middle
    suffix := ← Node.optional Node.text? suffix }

end Morphology

namespace Decomposition

/-- The member that names the case. -/
def tagName : String := "type"

/-- The name of the case. -/
def tag : Decomposition → String
  | infrastructure => "infrastructure"
  | invalid => "invalid"
  | parsed _ => "parsed"

/-- A decomposition as an object. -/
def toJson (d : Decomposition) : Json :=
  .record ((tagName, .ofString d.tag) :: (d.parts?.elim [] Morphology.members))

/-- Reads the case with a given name, from what stands beside the name. -/
def readCase? (tag : String) (rest : Json) : Option Decomposition :=
  if tag = "infrastructure" then some infrastructure
  else if tag = "invalid" then some invalid
  else if tag = "parsed" then (Morphology.read? rest).map parsed
  else none

/-- Reads a decomposition.  All of the value must be usable, also the members without a meaning;
in a list nothing may follow the name of a case without parts. -/
def read? (j : Json) : Option Decomposition :=
  if Json.isUsable Json.depthLimit j then
    match j with
    | .object ms => do
      let field ← Node.atKey? (ms.map fun m ↦ (Literal.decode? m.1, m.2)) tagName
      readCase? (← Node.required Node.text? field) j
    | .array (x :: xs) => do
      let d ← readCase? (← Node.text? x) (.array xs)
      if d.parts?.isNone && !xs.isEmpty then none else return d
    | _ => none
  else none

end Decomposition

end ManuscriptReach
