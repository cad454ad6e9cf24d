import ManuscriptReach.Tables.Codec
import ManuscriptReach.Hash.Sha256

/-!
# Fingerprints of tables

Tables with one canonical text have one fingerprint.  The canonical text holds sets
and maps in order, so it does not show how the documents listed them.
-/

namespace ManuscriptReach

/-- What identifies a set of tables. -/
structure Fingerprint where
  /-- The SHA-256 of the canonical text, in hexadecimal digits. -/
  hash : String
deriving DecidableEq

/-- The characters that make up the first `n` bytes of a text, or all of a shorter text; `none`
when the cut falls inside a character. -/
def takeBytes? : Nat → List Char → Option (List Char)
  | _, [] => some []
  | n, c :: cs =>
    if n = 0 then some []
    else if c.utf8Size ≤ n then (takeBytes? (n - c.utf8Size) cs).map (c :: ·)
    else none

namespace Fingerprint

/-- The fingerprint of a set of tables. -/
def ofTables (t : Tables) : Fingerprint := ⟨Sha256.hexText t.canonical⟩

/-- The first sixteen bytes of the hash. -/
def short? (f : Fingerprint) : Option String := (takeBytes? 16 f.hash.toList).map String.ofList

/-- A fingerprint as an object. -/
def toJson (f : Fingerprint) : Json := .record [("hash", .ofString f.hash)]

/-- Reads a fingerprint. -/
def read? {ν : Type} [Node ν] (x : ν) : Option Fingerprint := do
  let [hash] ← Node.fields? ["hash"] x | none
  return ⟨← Node.required Node.text? hash⟩

end Fingerprint

end ManuscriptReach
