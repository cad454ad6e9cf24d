import ManuscriptReach.Tables.Fingerprint
import ManuscriptReach.Report.Stream

/-!
# Manifests

A manifest records what a run read and what it wrote.  Two runs over the same tables
that wrote the same bytes have the same result, whenever and however they ran.
-/

namespace ManuscriptReach

/-- What tells one run from another with the same result. -/
structure RunStamp where
  /-- An identifier drawn for the run. -/
  id : String
  /-- The time at which it started. -/
  startedAt : String
  /-- How long the computation took. -/
  milliseconds : Nat
deriving DecidableEq

/-- The record of a run. -/
structure Manifest where
  /-- The stamp of the run, if it has one. -/
  stamp : Option RunStamp
  /-- The number of entries. -/
  entries : Nat
  /-- The number of propagations computed. -/
  distinctRestricted : Nat
  /-- The fingerprint of the tables. -/
  tables : Fingerprint
  /-- The digest of the reports. -/
  output : StreamDigest
deriving DecidableEq

namespace Manifest

/-- Whether two runs had the same tables and the same output. -/
def sameResult (m n : Manifest) : Bool := m.tables == n.tables && m.output == n.output

/-- A manifest as an object, with null where a run without a stamp has nothing to say. -/
def toJson (m : Manifest) : Json :=
  .record [("run_id", .nullable (fun s ↦ Json.ofString s.id) m.stamp),
    ("started_at", .nullable (fun s ↦ Json.ofString s.startedAt) m.stamp),
    ("entries", .ofNat m.entries), ("distinct_restricted_sets", .ofNat m.distinctRestricted),
    ("duration_ms", .nullable (fun s ↦ Json.ofNat s.milliseconds) m.stamp),
    ("tables", m.tables.toJson), ("output", m.output.toJson)]

end Manifest

end ManuscriptReach
