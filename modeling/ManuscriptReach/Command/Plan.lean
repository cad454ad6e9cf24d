import ManuscriptReach.Batch.Codec
import ManuscriptReach.Zone.Codec
import ManuscriptReach.Morphology.Codec
import ManuscriptReach.Command.Arguments
import ManuscriptReach.Command.Display

/-!
# What commands show and write

Once the tables and the registry have been read, a command is a function: it yields a
`Plan` of what to show and which files to write.  Nothing is written before the plan
is complete.
-/

namespace ManuscriptReach

/-- What a command shows and writes, in this order. -/
structure Plan where
  /-- What is shown first. -/
  shown : String
  /-- The files to write, with their paths. -/
  files : List (String × String)
  /-- What is shown when the files have been written. -/
  closing : String
deriving DecidableEq

namespace Plan

/-- The plan to show a text and no more. -/
def showing (text : String) : Plan := ⟨text, [], ""⟩

/-- The plan to show a JSON tree in one format, or lines in the other. -/
def ofFormat (format : OutputFormat) (tree : Json) (lines : List String) : Plan :=
  showing <|
    match format with
    | .json => tree.indented ++ "\n"
    | .pretty => unlines lines

end Plan

namespace Tables

/-- A token and its decomposition as an object, with the spread of its middle if it has one. -/
def tokenToJson (t : Tables) (token : String) : Json :=
  let d := t.markers.decompose token
  .record <|
    [("token", .ofString token), ("decomposition", d.toJson)] ++
    Json.optional "spread" Json.ofNat (t.middleSpread? d)

/-- The plan to decompose tokens. -/
def planDecompose (t : Tables) (format : OutputFormat) (tokens : List String) : Plan :=
  .ofFormat format (.array (tokens.map t.tokenToJson)) (tokens.map t.tokenLine)

/-- The plan to report on one entry. -/
def planEntry (t : Tables) (format : OutputFormat) (e : Entry) : Plan :=
  let report := t.report true (t.outcome e)
  .ofFormat format report.toJson report.lines

/-- The figures of the tables as an object. -/
def checkToJson (t : Tables) : Json :=
  .record [("folios", .ofNat t.folios.folios.length),
    ("indexed_middles", .ofNat t.spreads.counts.size), ("zones", .ofStrings t.zones.labels),
    ("classes", .ofNat t.classes.classes.length), ("floor_classes", .ofNat t.classes.floor.size),
    ("targets", .ofNat t.targets.targets.length),
    ("restricted_max_spread", .ofNat t.settings.restrictedSpread),
    ("fingerprint", .ofString (Fingerprint.ofTables t).hash),
    ("monotonicity_violations", .array (t.violations.map LegalityViolation.toJson))]

/-- The plan to check the tables. -/
def planCheck (t : Tables) (format : OutputFormat) : Plan :=
  .ofFormat format t.checkToJson.sortMembers t.checkLines

/-- The manifest of a batch. -/
def manifest (t : Tables) (stamp : Option RunStamp) (b : Batch) (output : StreamDigest) :
    Manifest where
  stamp := stamp
  entries := b.outcomes.length
  distinctRestricted := b.computed
  tables := .ofTables t
  output := output

/-- What is shown at the end of a run that wrote its reports to a file. -/
def closing (format : OutputFormat) (s : Summary) (m : Manifest) : String :=
  match format with
  | .json => (Json.record [("manifest", m.toJson), ("summary", s.toJson)]).sortMembers.indented ++ "\n"
  | .pretty => unlines (s.lines m)

/-- The plan of a run.  The reports are shown unless they go to a file, and are shown or written
first; then the summary and the manifest are written. -/
def planRun (t : Tables) (stamp : Option RunStamp) (o : Options) (r : RunRequest)
    (entries : List Entry) : Plan :=
  let batch := t.run r.shared entries
  let stream := ReportStream.ofReports (t.reports r.diagnostics batch)
  let summary := t.summary batch.outcomes
  let manifest := t.manifest stamp batch stream.digest
  { shown := if r.out.isNone then stream.text else ""
    files :=
      (r.out.map fun path ↦ (path, stream.text)).toList ++
      (r.summary.map fun path ↦ (path, summary.toJson.indented)).toList ++
      (r.manifest.map fun path ↦ (path, manifest.toJson.indented)).toList
    closing := if r.out.isSome && !o.quiet then closing o.format summary manifest else "" }

end Tables

end ManuscriptReach
