import ManuscriptReach.Report.Codec
import ManuscriptReach.Hash.Sha256

/-!
# Streams of reports

Reports are written one a line into a sink, and the bytes of every line are also given
to a hash.  A sink may have limited room; it then refuses a line as a whole, and what
was refused is neither counted nor hashed.
-/

namespace ManuscriptReach

/-- What identifies a stream: the hash of its bytes and the number of its reports. -/
structure StreamDigest where
  /-- The SHA-256 of the bytes, in hexadecimal digits. -/
  hash : String
  /-- The number of reports. -/
  reports : Nat
deriving DecidableEq

/-- Why a line could not be written. -/
inductive StreamFault where
  /-- The sink has no room for the line. -/
  | sinkFull
deriving DecidableEq

/-- What the user is told. -/
def StreamFault.message : StreamFault → String
  | sinkFull => "IO error: sink full"

/-- What has been written so far. -/
structure ReportStream where
  /-- How many bytes the sink takes in all, when that is limited. -/
  room : Option Nat
  /-- The text in the sink. -/
  text : String
  /-- The bytes that the hash was given. -/
  hashed : ByteArray
  /-- The number of reports written. -/
  reports : Nat

namespace ReportStream

/-- The stream into an empty sink. -/
def start (room : Option Nat) : ReportStream := ⟨room, "", .empty, 0⟩

/-- Whether the sink takes a further line. -/
def accepts (s : ReportStream) (line : String) : Bool :=
  s.room.all fun n ↦ decide (s.text.utf8ByteSize + line.utf8ByteSize ≤ n)

/-- Sends a line to the sink. -/
def send (s : ReportStream) (line : String) : Except StreamFault ReportStream :=
  if s.accepts line then .ok { s with text := s.text ++ line } else .error .sinkFull

/-- Gives bytes to the hash. -/
def hash (s : ReportStream) (bytes : ByteArray) : ReportStream :=
  { s with hashed := s.hashed ++ bytes }

/-- Counts a report. -/
def count (s : ReportStream) : ReportStream := { s with reports := s.reports + 1 }

/-- Writes one report and a line end: to the sink first, and to the hash when the sink took it. -/
def write (s : ReportStream) (r : Report) : Except StreamFault ReportStream := do
  let line := r.line ++ "\n"
  return ((← s.send line).hash line.toUTF8).count

/-- Writes reports up to the first that is refused. -/
def writeAll (s : ReportStream) : List Report → ReportStream × Option StreamFault
  | [] => (s, none)
  | r :: rs =>
    match s.write r with
    | .ok s => s.writeAll rs
    | .error fault => (s, some fault)

/-- The digest of what the hash was given. -/
def digest (s : ReportStream) : StreamDigest := ⟨Sha256.hexDigits s.hashed, s.reports⟩

/-- The stream of some reports into a sink without limit. -/
def ofReports (rs : List Report) : ReportStream := ((start none).writeAll rs).1

end ReportStream

/-- A digest as an object. -/
def StreamDigest.toJson (d : StreamDigest) : Json :=
  .record [("hash", .ofString d.hash), ("reports", .ofNat d.reports)]

/-- Reads a digest. -/
def StreamDigest.read? {ν : Type} [Node ν] (x : ν) : Option StreamDigest := do
  let [hash, reports] ← Node.fields? ["hash", "reports"] x | none
  return ⟨← Node.required Node.text? hash, ← Node.required Node.natural? reports⟩

end ManuscriptReach
