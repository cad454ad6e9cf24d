import ManuscriptReach.Entry
import ManuscriptReach.Json.Writer
import ManuscriptReach.Json.Node

/-!
# Entries in documents
-/

namespace ManuscriptReach.Entry

/-- An entry as an object. -/
def toJson (e : Entry) : Json :=
  .record [("id", .ofString e.id), ("tokens", .ofStrings e.tokens)]

/-- Reads an entry. -/
def read? {ν : Type} [Node ν] (x : ν) : Option Entry := do
  let [id, tokens] ← Node.fields? ["id", "tokens"] x | none
  return ⟨← Node.required Node.text? id, ← Node.required Node.texts? tokens⟩

/-- An entry as one line of compact JSON, without a line end. -/
def line (e : Entry) : String := e.toJson.compact

/-- Reads an entry from a line of JSON. -/
def ofLine? (s : String) : Option Entry := Json.readAs? read? s

end ManuscriptReach.Entry
