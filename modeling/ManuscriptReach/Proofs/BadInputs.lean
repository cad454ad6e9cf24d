import ManuscriptReach.Command.Perform
import ManuscriptReach.Proofs.Acceptance
import ManuscriptReach.Proofs.ReadOnly
import ManuscriptReach.Proofs.Registry
import ManuscriptReach.Proofs.Streams

/-!
# Runs over bad inputs

A run reads the files of a table directory and a registry.  `inputFaults` lists all that is
wrong with them in some state, and `InputsAccepted` says what makes them acceptable
(`inputFaults_eq_nil_iff`).

All inputs have been read and checked before anything is shown or written.  So a run over
bad inputs reports the first fault and does nothing else (`program_badInputs`): the state in
which it ends is the state in which it started.
-/

namespace ManuscriptReach

/-! ## Faults of the inputs -/

/-- A file of a table directory. -/
structure TableFile where
  /-- Its name in the directory. -/
  name : String
  /-- Whether it must be there. -/
  required : Bool
  /-- Whether a text is the document that belongs in the file. -/
  admits : String → Bool

/-- The file for documents that a function reads. -/
def TableFile.of {α : Type} (name : String) (required : Bool) (read : Yaml → Option α) :
    TableFile :=
  ⟨name, required, fun text ↦ (Yaml.readAs? read text).isSome⟩

/-- The files of a table directory, in the order in which they are read. -/
def tableFiles : List TableFile :=
  [.of markersFile true MarkersDocument.read?,
    .of "folios.yaml" true (Node.list? FolioDocument.read?),
    .of "spreads.yaml" false readSpreads?,
    .of "zones.yaml" true ZonesDocument.read?,
    .of "classes.yaml" true (Node.list? ClassDocument.read?),
    .of "targets.yaml" true (Node.list? TargetDocument.read?),
    .of "settings.yaml" false SettingsDocument.read?]

section

variable {σ : Type} [Host (StateM σ)]

/-- The bytes of the file at a path, in a state. -/
def fileAt (s : σ) (path : String) : Except FileFault ByteArray := valueAt s (Host.readFile path)

/-- The text of the file at a path, in a state. -/
def textAt (s : σ) (path : String) : Except FileFault String := valueAt s (Host.readText path)

/-- Whether a file or directory is at a path, in a state. -/
def thereAt (s : σ) (path : String) : Bool := valueAt s (Host.isThere path)

/-- The fault of a document in the file at a path. -/
def documentFaults (admits : String → Bool) (s : σ) (path : String) : List LoadFault :=
  match textAt s path with
  | .error reason => [.unreadable path reason]
  | .ok text => faultUnless (admits text = true) (.malformed path)

/-- The fault of a file of a table directory.  A file that may be missing has none when it is. -/
def TableFile.faults (s : σ) (directory : String) (f : TableFile) : List LoadFault :=
  let path := Path.join directory f.name
  if f.required || thereAt s path then documentFaults f.admits s path else []

/-- The documents in a directory, if they can be read. -/
def documentsAt? (s : σ) (directory : String) : Option TableDocuments :=
  (valueAt s (TableDocuments.load directory).run).toOption

/-- The faults of the tables in a directory: those of its files, and those of the documents. -/
def tableFaults (s : σ) (directory : String) : List LoadFault :=
  tableFiles.flatMap (TableFile.faults s directory) ++
    (documentsAt? s directory).elim [] fun d ↦ d.faults.map (.invalid directory)

/-- The fault of the registry at a path. -/
def registryFaults (s : σ) (path : String) : List CommandFault :=
  match fileAt s path with
  | .error reason => [.unreadable path reason]
  | .ok bytes =>
    match Registry.read (.ofPath path) bytes with
    | .error fault => [.registry path fault]
    | .ok _ => []

/-- The faults of the inputs of a run, in the order in which they count. -/
def inputFaults (s : σ) (directory registry : String) : List CommandFault :=
  (tableFaults s directory).map .tables ++ registryFaults s registry

/-- The directory from which a command loads its tables, in a state. -/
def directoryAt (s : σ) (o : Options) : String :=
  o.tables.getD <| valueAt s <|
    tableDirectory (EnvironmentFile.valueAmong? (valueAt s EnvironmentFile.load))

end

/-! ## Acceptable inputs -/

section

variable {σ : Type} [Host (StateM σ)] {s : σ}

/-- A run can work with its inputs in a state. -/
structure InputsAccepted (s : σ) (directory registry : String) : Prop where
  /-- A file of the tables that must be there, or is, holds the document that belongs in it. -/
  files : ∀ f ∈ tableFiles,
    f.required = true ∨ thereAt s (Path.join directory f.name) = true →
      ∃ text, textAt s (Path.join directory f.name) = .ok text ∧ f.admits text = true
  /-- The documents make sense together. -/
  documents : ∀ d, documentsAt? s directory = some d → d.Accepts
  /-- All lines of the registry are accepted, down to the last. -/
  registry : ∃ bytes entries, fileAt s registry = .ok bytes ∧
    Registry.Accepts (.ofPath registry) (byteLines bytes) entries

theorem documentFaults_eq_nil_iff {admits : String → Bool} {path : String} :
    documentFaults admits s path = [] ↔ ∃ text, textAt s path = .ok text ∧ admits text = true := by
  unfold documentFaults
  cases textAt s path with
  | error reason => simp
  | ok text => simp

theorem TableFile.faults_eq_nil_iff {f : TableFile} {directory : String} :
    f.faults s directory = [] ↔
      (f.required = true ∨ thereAt s (Path.join directory f.name) = true →
        ∃ text, textAt s (Path.join directory f.name) = .ok text ∧ f.admits text = true) := by
  rw [faults, ← Bool.or_eq_true, ← documentFaults_eq_nil_iff]
  split
  next needed => simp [needed]
  next needed => simp [needed]

theorem registryFaults_eq_nil_iff {path : String} :
    registryFaults s path = [] ↔ ∃ bytes entries, fileAt s path = .ok bytes ∧
      Registry.Accepts (.ofPath path) (byteLines bytes) entries := by
  simp only [← Registry.read_eq_ok_iff]
  unfold registryFaults
  cases fileAt s path with
  | error reason => simp
  | ok bytes => cases h : Registry.read (.ofPath path) bytes <;> simp [h]

/-- Inputs are without fault exactly when a run can work with them. -/
theorem inputFaults_eq_nil_iff {directory registry : String} :
    inputFaults s directory registry = [] ↔ InputsAccepted s directory registry := by
  have documents : ((documentsAt? s directory).elim [] fun d ↦
      d.faults.map (LoadFault.invalid directory)) = [] ↔
      ∀ d, documentsAt? s directory = some d → d.Accepts := by
    cases documentsAt? s directory with
    | none => simp
    | some d => simp [TableDocuments.faults_eq_nil_iff]
  rw [inputFaults, List.append_eq_nil_iff, List.map_eq_nil_iff, tableFaults,
    List.append_eq_nil_iff, List.flatMap_eq_nil_iff, documents, registryFaults_eq_nil_iff]
  simp only [TableFile.faults_eq_nil_iff]
  constructor
  · rintro ⟨⟨files, documents⟩, registry⟩
    exact ⟨files, documents, registry⟩
  · rintro ⟨files, documents, registry⟩
    exact ⟨⟨files, documents⟩, registry⟩

end

/-! ## Loading finds the first fault -/

section

variable {σ α : Type} [Host (StateM σ)] [Host.ReadsOnly σ] (s : σ)

theorem readDocument_checks (read : Yaml → Option α) (path : String) :
    ChecksAt s (documentFaults (fun text ↦ (Yaml.readAs? read text).isSome) s path)
      (readDocument read path) := by
  unfold readDocument documentFaults
  refine .mk_bind (Host.readText_quiet path) ?_
  rw [textAt]
  cases valueAt s (Host.readText path) with
  | error reason => exact .of_checks s (.failed _ _)
  | ok text => exact .of_checks s (.of_elim _ _)

theorem TableFile.required_checks (read : Yaml → Option α) (directory name : String) :
    ChecksAt s ((TableFile.of name true read).faults s directory)
      (readDocument read (Path.join directory name)) :=
  readDocument_checks s read _

theorem TableFile.optional_checks (read : Yaml → Option α) (directory name : String) :
    ChecksAt s ((TableFile.of name false read).faults s directory)
      (readDocument? read (Path.join directory name)) := by
  unfold readDocument?
  refine .lift_bind (Host.ReadsOnly.isThere _) ?_
  rw [TableFile.faults, TableFile.of, thereAt]
  dsimp only
  rw [Bool.false_or]
  cases valueAt s (Host.isThere (Path.join directory name)) with
  | false => exact .pure s _
  | true =>
    rw [if_pos rfl, ← List.append_nil (documentFaults _ s _)]
    exact (readDocument_checks s read _).bind fun _ _ ↦ .pure s _

theorem TableDocuments.load_checks (directory : String) :
    ChecksAt s (tableFiles.flatMap (TableFile.faults s directory)) (load directory) := by
  simp only [tableFiles, List.flatMap_cons, List.flatMap_nil]
  refine (TableFile.required_checks s _ directory _).bind fun markers _ ↦ ?_
  refine (TableFile.required_checks s _ directory _).bind fun folios _ ↦ ?_
  refine (TableFile.optional_checks s _ directory _).bind fun spreads _ ↦ ?_
  refine (TableFile.required_checks s _ directory _).bind fun zones _ ↦ ?_
  refine (TableFile.required_checks s _ directory _).bind fun classes _ ↦ ?_
  refine (TableFile.required_checks s _ directory _).bind fun targets _ ↦ ?_
  exact (TableFile.optional_checks s _ directory _).bind fun settings _ ↦ .pure s _

theorem Tables.load_checks (directory : String) :
    ChecksAt s (tableFaults s directory) (load directory) := by
  refine (TableDocuments.load_checks s directory).bind fun d run ↦ ?_
  have documents : documentsAt? s directory = some d := by
    rw [documentsAt?, valueAt, run]
    rfl
  rw [documents, Option.elim_some]
  refine ⟨_, d.build_checks.mapError (LoadFault.invalid directory), ?_⟩
  cases d.build <;> rfl

theorem Registry.load_checks (path : String) :
    ChecksAt s (registryFaults s path) (load path) := by
  unfold load registryFaults
  refine .mk_bind (Host.ReadsOnly.readFile path) ?_
  rw [fileAt]
  cases valueAt s (Host.readFile path) with
  | error reason => exact .of_checks s (.failed _ _)
  | ok bytes =>
    refine .of_checks s ?_
    dsimp only
    cases Registry.read (.ofPath path) bytes with
    | error fault => exact .failed _ _
    | ok entries => exact .passed entries

/-- The inputs can be loaded exactly when they have no fault. -/
theorem exists_load_iff {directory registry : String} :
    ((∃ t, valueAt s (Tables.load directory).run = .ok t) ∧
        ∃ entries, valueAt s (Registry.load registry).run = .ok entries) ↔
      inputFaults s directory registry = [] := by
  rw [(Tables.load_checks s directory).exists_valueAt_iff,
    (Registry.load_checks s registry).exists_valueAt_iff, inputFaults, List.append_eq_nil_iff,
    List.map_eq_nil_iff]

end

/-! ## What is left to see -/

theorem Json.isPlain_error (message : String) :
    IsPlain (record [("error", .ofString message)]) :=
  .record (by simp [IsPlain.ofString])

/-- The line that reports a fault is no line of a report. -/
theorem Report.ofBytes?_error (message : String) :
    ofBytes? (Json.record [("error", .ofString message)]).compact.toUTF8 = none := by
  rw [ofBytes?, fromUTF8?_toUTF8, Option.bind_some, ofLine?, Json.readAs?,
    Json.read?_compact (Json.isPlain_error message), Option.bind_some, read?,
    Json.fields?_record (by simp)]
  simp [Node.required, SortedMap.lookup_cons_ite]

theorem Report.ofBytes?_empty : ofBytes? .empty = none := by decide +kernel

/-- A command that has failed has shown no line of a report. -/
theorem Ending.no_report (format : OutputFormat) (fault : CommandFault) :
    ∀ line ∈ cutAtLineFeeds (Ending.screen format ⟨"", some fault⟩).out.toUTF8,
      Report.ofBytes? line = none := by
  cases format with
  | pretty =>
    rw [screen, cutAtLineFeeds_empty, List.forall_mem_singleton]
    exact Report.ofBytes?_empty
  | json =>
    have pieces :=
      cutAtLineFeeds_append (Json.isPlain_error fault.message).lineFeed_not_mem_compact ""
    rw [String.append_empty, cutAtLineFeeds_empty] at pieces
    change ∀ line ∈ cutAtLineFeeds (("" ++ _ ++ "\n" : String)).toUTF8, _
    rw [String.empty_append, pieces, List.forall_mem_cons, List.forall_mem_singleton]
    exact ⟨Report.ofBytes?_error _, Report.ofBytes?_empty⟩

section

variable {σ : Type} [Host (StateM σ)] [Host.ReadsOnly σ] {s : σ} {o : Options} {r : RunRequest}
  {fault : CommandFault}

/-- A run over bad inputs has no plan. -/
theorem Command.planIn_badInputs {directory : String}
    (bad : (inputFaults s directory r.entries).head? = some fault) :
    ((Command.run r).planIn directory o : ExceptT CommandFault (StateM σ) Plan).run.run s =
      (.error fault, s) := by
  have tables := (Tables.load_checks s directory).adapt CommandFault.tables
  rw [inputFaults, List.head?_append] at bad
  rw [planIn]
  cases h : (tableFaults s directory).map CommandFault.tables with
  | nil =>
    rw [h] at bad
    obtain ⟨t, run⟩ := tables.exists_run_of_nil h
    rw [run_bind_of_ok _ run]
    exact run_bind_of_error _ ((Registry.load_checks s r.entries).run_of_head? bad)
  | cons f fs =>
    rw [h] at bad
    refine run_bind_of_error _ (tables.run_of_head? ?_)
    rw [h]
    exact bad

theorem Command.performIn_badInputs {directory : String}
    (bad : (inputFaults s directory r.entries).head? = some fault) :
    ((Command.run r).performIn directory o : StateM σ Ending).run s = (⟨"", some fault⟩, s) := by
  rw [performIn, StateT.run_bind, planIn_badInputs bad]
  rfl

/-- The directory of a command is found without changing anything. -/
theorem Command.run_perform (c : Command) (o : Options) :
    (c.perform (valueAt s EnvironmentFile.load) o : StateM σ Ending).run s =
      (c.performIn (directoryAt s o) o : StateM σ Ending).run s := by
  rw [perform, directoryAt]
  cases o.tables with
  | some directory => rfl
  | none =>
    exact (tableDirectory_quiet (EnvironmentFile.valueAmong?_quiet _)).run_bind s

/-- **Bad inputs leave everything in place.**  The tables and the registry can be loaded exactly
when every file of theirs can be read, is what it should be, and makes sense.  Otherwise a run
reports the first fault and fails; it shows no line of a report, and it leaves every file as it was,
whether the command names it or not. -/
theorem program_badInputs (s : σ) {arguments : List String}
    (asked : CommandLine.request? arguments = some (.perform o (.run r))) :
    (((∃ t, valueAt s (Tables.load (directoryAt s o)).run = .ok t) ∧
        ∃ entries, valueAt s (Registry.load r.entries).run = .ok entries) ↔
      InputsAccepted s (directoryAt s o) r.entries) ∧
      (¬ InputsAccepted s (directoryAt s o) r.entries →
        ∃ fault screen, (inputFaults s (directoryAt s o) r.entries).head? = some fault ∧
          screen = Ending.screen o.format ⟨"", some fault⟩ ∧
          (program arguments : StateM σ Screen).run s = (screen, s) ∧ screen.exit = 1 ∧
          ∀ line ∈ cutAtLineFeeds screen.out.toUTF8, Report.ofBytes? line = none) := by
  rw [exists_load_iff, inputFaults_eq_nil_iff]
  refine ⟨Iff.rfl, fun bad ↦ ?_⟩
  rw [← inputFaults_eq_nil_iff] at bad
  obtain ⟨fault, first⟩ := Option.ne_none_iff_exists'.1 (mt List.head?_eq_none_iff.1 bad)
  refine ⟨fault, _, first, rfl, ?run, ?exit, Ending.no_report o.format fault⟩
  case run =>
    unfold program
    rw [EnvironmentFile.load_quiet.run_bind, asked]
    dsimp only
    rw [StateT.run_bind, Command.run_perform, Command.performIn_badInputs first]
    rfl
  case exit => cases o.format <;> rfl

end

/-- A workspace whose table directory lacks all files but one, and whose registry names two entries
alike, the second in its last line. -/
def brokenWorkspace : Workspace :=
  .ofFiles [("tables/markers.yaml", "prefixes: [qo]"), ("entries.tsv", "e1\tqoa\ne1\tqob"),
    ("out.jsonl", "kept")]

/-- The arguments of a run that would write its reports over a file of the workspace. -/
def brokenArguments : List String :=
  ["run", "--entries", "entries.tsv", "--out", "out.jsonl", "--format", "json"]

theorem brokenArguments_request : CommandLine.request? brokenArguments = some (.perform
    ⟨none, .json, false⟩
    (.run ⟨"entries.tsv", some "out.jsonl", none, none, false, true⟩)) := by
  decide +kernel

theorem inputFaults_brokenWorkspace :
    inputFaults brokenWorkspace (directoryAt brokenWorkspace ⟨none, .json, false⟩) "entries.tsv" =
      [.tables (.unreadable "tables/folios.yaml" .notFound),
        .tables (.unreadable "tables/zones.yaml" .notFound),
        .tables (.unreadable "tables/classes.yaml" .notFound),
        .tables (.unreadable "tables/targets.yaml" .notFound),
        .registry "entries.tsv" ⟨2, .duplicateId "e1"⟩] := by
  decide +kernel

theorem program_badInputs_sample :
    CommandLine.request? brokenArguments = some (.perform ⟨none, .json, false⟩
      (.run ⟨"entries.tsv", some "out.jsonl", none, none, false, true⟩)) ∧
      ¬ InputsAccepted brokenWorkspace (directoryAt brokenWorkspace ⟨none, .json, false⟩)
        "entries.tsv" ∧
      ∃ screen, (program brokenArguments : StateM Workspace Screen).run brokenWorkspace =
          (screen, brokenWorkspace) ∧
        screen.exit = 1 := by
  have bad : ¬ InputsAccepted brokenWorkspace
      (directoryAt brokenWorkspace ⟨none, .json, false⟩) "entries.tsv" := by
    rw [← inputFaults_eq_nil_iff, inputFaults_brokenWorkspace]
    exact List.cons_ne_nil _ _
  obtain ⟨fault, screen, -, -, run, exit, -⟩ :=
    (program_badInputs brokenWorkspace brokenArguments_request).2 bad
  exact ⟨brokenArguments_request, bad, screen, run, exit⟩

end ManuscriptReach
