import ManuscriptReach.Proofs.BadInputs
import ManuscriptReach.Proofs.LineEnds
import ManuscriptReach.Proofs.Sharing
import ManuscriptReach.Proofs.WorkspaceFiles

/-!
# The bytes of the reports

A run has loaded its tables and its registry before it writes anything, and what it writes as its
reports is a function of the two and of the choice of diagnostics (`Tables.reportText`).  So the
bytes are the same wherever they go and whatever else is written (`program_reports`): sharing
propagations does not change the outcomes, a stream hashes and counts exactly what it is given, and
the files that are written later go to other places.

Paths that are spelled differently can lead to one place.  The reports are only safe from the
summary and the manifest when these go to other places (`RunRequest.SetsApart`).
-/

namespace ManuscriptReach

/-! ## The text of the reports -/

namespace Report

/-- The reports in a text are its lines. -/
theorem breaks_textOf (rs : List Report) : Breaks (rs.map line) (textOf rs) := by
  induction rs with
  | nil => exact .nil
  | cons r rs ih =>
    rw [textOf, List.map_cons, List.map_cons, String.join_cons, ← textOf]
    exact .lineFeed ih

theorem length_byteLines_textOf (rs : List Report) :
    (byteLines (textOf rs).toUTF8).length = rs.length := by
  obtain ⟨cuts, bytes, cutAs⟩ := (breaks_textOf rs).byteLines_eq
    (List.forall_mem_map.2 fun r _ ↦ r.lineFeed_not_mem_line)
  rw [bytes, List.length_map, ← cutAs.length_eq, List.length_map]

end Report

theorem ReportStream.ofReports_eq (rs : List Report) :
    ofReports rs = ⟨none, Report.textOf rs, (Report.textOf rs).toUTF8, rs.length⟩ := by
  have written : (start none).writeAll rs = (ofReports rs, none) :=
    Prod.ext rfl (writeAll_unlimited rfl rs)
  obtain ⟨text, reports, room⟩ := text_of_writeAll written
  have hashed : (ofReports rs).hashed = (ofReports rs).text.toUTF8 :=
    (hashesSink_start none).writeAll rs
  rw [start, String.empty_append] at text
  rw [start, Nat.zero_add] at reports
  rw [text] at hashed
  have parts : ofReports rs = ⟨(ofReports rs).room, (ofReports rs).text, (ofReports rs).hashed,
      (ofReports rs).reports⟩ := rfl
  rw [parts, text, hashed, reports, room, start]

namespace Tables

/-- The text of the reports on some entries. -/
def reportText (t : Tables) (diagnostics : Bool) (entries : List Entry) : String :=
  Report.textOf (entries.map fun e ↦ t.report diagnostics (t.outcome e))

/-- The stream of a batch holds the text of the reports, whether propagations are shared or not. -/
theorem stream_run (t : Tables) (diagnostics shared : Bool) (entries : List Entry) :
    ReportStream.ofReports (t.reports diagnostics (t.run shared entries)) =
      ⟨none, t.reportText diagnostics entries, (t.reportText diagnostics entries).toUTF8,
        entries.length⟩ := by
  rw [ReportStream.ofReports_eq, reports, outcomes_run, List.map_map, List.length_map]
  rfl

end Tables

/-- A manifest records the text of the reports on some entries. -/
structure Manifest.Records (m : Manifest) (text : String) (entries : List Entry) : Prop where
  /-- The hash is that of the bytes of the text, -/
  hash : m.output.hash = Sha256.hexDigits text.toUTF8
  /-- and the number of reports is that of its lines. -/
  reports : m.output.reports = (byteLines text.toUTF8).length
  entries : m.entries = entries.length

/-! ## What a run leaves behind -/

namespace RunRequest

/-- The paths of the files that a run writes. -/
def paths (r : RunRequest) : List String := r.out.toList ++ r.summary.toList ++ r.manifest.toList

/-- The reports go to a place to which neither the summary nor the manifest goes. -/
def SetsApart (r : RunRequest) (w : Workspace) : Prop :=
  ∀ out ∈ r.out, ∀ path, path ∈ r.summary ∨ path ∈ r.manifest → w.resolve path ≠ w.resolve out

/-- The bytes of the reports after a run: those in the file to which they were to go, or else all
that was shown. -/
def delivered (r : RunRequest) (screen : Screen) (after : Workspace) : Except FileFault ByteArray :=
  match r.out with
  | none => .ok screen.out.toUTF8
  | some path => after.read path

end RunRequest

/-- A run has ended well and has left a text as its reports. -/
structure Delivers (text : String) (t : Tables) (entries : List Entry) (o : Options)
    (r : RunRequest) (screen : Screen) (after : Workspace) : Prop where
  exit : screen.exit = 0
  reports : r.delivered screen after = .ok text.toUTF8
  /-- The manifest records the reports, both in its file and at the end of what is shown. -/
  manifest : ∃ m : Manifest, m.Records text entries ∧
    (∀ path ∈ r.manifest, after.read path = .ok m.toJson.indented.toUTF8) ∧
    (r.out.isSome = true → screen.out =
      if o.quiet then "" else Tables.closing o.format (t.summary (entries.map t.outcome)) m)

/-- The tables and the entries that a run works with. -/
structure Loads (w : Workspace) (o : Options) (r : RunRequest) (t : Tables)
    (entries : List Entry) : Prop where
  tables : valueAt w (Tables.load (directoryAt w o)).run = .ok t
  registry : valueAt w (Registry.load r.entries).run = .ok entries

/-! ## Plans -/

section

variable {t : Tables} {o : Options} {r : RunRequest} {entries : List Entry} {w w' : Workspace}

/-- The files that a run writes, for given texts. -/
def RunRequest.filesWith (r : RunRequest) (text summary manifest : String) :
    List (String × String) :=
  (r.out.map fun path ↦ (path, text)).toList ++
    (r.summary.map fun path ↦ (path, summary)).toList ++
    (r.manifest.map fun path ↦ (path, manifest)).toList

theorem RunRequest.map_filesWith (r : RunRequest) (text summary manifest : String) :
    (r.filesWith text summary manifest).map Prod.fst = r.paths := by
  rw [filesWith, paths]
  cases r.out <;> cases r.summary <;> cases r.manifest <;> rfl

/-- What a run shows and writes, by the text of the reports and a manifest that records it. -/
theorem Tables.exists_planRun_eq (t : Tables) (stamp : Option RunStamp) (o : Options)
    (r : RunRequest) (entries : List Entry) :
    ∃ m : Manifest, m.Records (t.reportText r.diagnostics entries) entries ∧
      t.planRun stamp o r entries =
        { shown := if r.out.isNone then t.reportText r.diagnostics entries else ""
          files := r.filesWith (t.reportText r.diagnostics entries)
            (t.summary (entries.map t.outcome)).toJson.indented m.toJson.indented
          closing := if r.out.isSome && !o.quiet then
            closing o.format (t.summary (entries.map t.outcome)) m else "" } := by
  let stream : ReportStream := ⟨none, t.reportText r.diagnostics entries,
    (t.reportText r.diagnostics entries).toUTF8, entries.length⟩
  have hashes : stream.HashesSink := rfl
  refine ⟨t.manifest stamp (t.run r.shared entries) stream.digest, ?records, ?plan⟩
  case records =>
    refine ⟨hashes.hash_digest, ?_, ?_⟩
    · change entries.length = _
      rw [reportText, Report.length_byteLines_textOf, List.length_map]
    · rw [manifest, outcomes_run, List.length_map]
  case plan =>
    rw [planRun]
    simp only [stream_run, outcomes_run]
    rfl

theorem read_out_writeFiles {text summary manifest path : String} (hp : r.out = some path)
    (run : (Host.writeFiles (r.filesWith text summary manifest) : StateM Workspace _).run w =
      (none, w')) (apart : r.SetsApart w) : w'.read path = .ok text.toUTF8 := by
  have files : r.filesWith text summary manifest = [] ++ (path, text) ::
      ((r.summary.map fun path ↦ (path, summary)).toList ++
        (r.manifest.map fun path ↦ (path, manifest)).toList) := by
    rw [RunRequest.filesWith, hp]
    rfl
  rw [files] at run
  refine Workspace.read_writeFiles run fun f hf ↦ apart path hp f.1 ?_
  simp only [List.mem_append, Option.mem_toList, Option.map_eq_some_iff] at hf
  rcases hf with ⟨path, hs, rfl⟩ | ⟨path, hm, rfl⟩
  · exact .inl hs
  · exact .inr hm

theorem read_manifest_writeFiles {text summary manifest path : String} (hp : r.manifest = some path)
    (run : (Host.writeFiles (r.filesWith text summary manifest) : StateM Workspace _).run w =
      (none, w')) : w'.read path = .ok manifest.toUTF8 := by
  rw [RunRequest.filesWith, hp] at run
  exact Workspace.read_writeFiles run fun f hf ↦ absurd hf List.not_mem_nil

/-! ## Runs -/

theorem Command.run_carryOut_of_none {p : Plan}
    (run : (Host.writeFiles p.files : StateM Workspace _).run w = (none, w')) :
    (carryOut p : StateM Workspace Ending).run w = (⟨p.shown ++ p.closing, none⟩, w') := by
  rw [carryOut, StateT.run_bind, run]
  rfl

theorem Command.run_carryOut_of_some {p : Plan} {path : String} {reason : FileFault}
    (run : (Host.writeFiles p.files : StateM Workspace _).run w = (some (path, reason), w')) :
    (carryOut p : StateM Workspace Ending).run w =
      (⟨p.shown, some (.unwritable path reason)⟩, w') := by
  rw [carryOut, StateT.run_bind, run]
  rfl

theorem ChecksAt.run_of_valueAt {σ α ε : Type} {s : σ} {fs : List ε} {x : ExceptT ε (StateM σ) α}
    (h : ChecksAt s fs x) {a : α} (value : valueAt s x.run = .ok a) : x.run.run s = (.ok a, s) := by
  obtain ⟨r, -, run⟩ := h
  rw [valueAt, run] at value
  rw [run, ← value]

/-- A run whose inputs can be loaded has a plan. -/
theorem Command.run_planIn (loads : Loads w o r t entries) :
    ((Command.run r).planIn (directoryAt w o) o :
      ExceptT CommandFault (StateM Workspace) Plan).run.run w =
        (.ok (t.planRun none o r entries), w) := by
  have tables := (Tables.load_checks w (directoryAt w o)).run_of_valueAt loads.tables
  have registry := (Registry.load_checks w r.entries).run_of_valueAt loads.registry
  have adapted : ((Tables.load (directoryAt w o) :
      ExceptT LoadFault (StateM Workspace) Tables).adapt CommandFault.tables).run.run w =
        (.ok t, w) := by
    rw [ExceptT.run_adapt, StateT.run_map, tables]
    rfl
  rw [planIn, run_bind_of_ok _ adapted, planWith, run_bind_of_ok _ registry]
  rfl

/-- The program performs what its arguments ask for over the tables that it finds. -/
theorem run_program {arguments : List String} {c : Command}
    (asked : CommandLine.request? arguments = some (.perform o c)) (w : Workspace) :
    (program arguments : StateM Workspace Screen).run w =
      ((c.performIn (directoryAt w o) o : StateM Workspace Ending).run w).map
        (Ending.screen o.format) id := by
  unfold program
  rw [EnvironmentFile.load_quiet.run_bind, asked]
  dsimp only
  rw [StateT.run_bind, Command.run_perform]
  rfl

theorem Ending.exit_screen_eq_zero_iff (format : OutputFormat) (e : Ending) :
    (e.screen format).exit = 0 ↔ e.fault = none := by
  obtain ⟨shown, fault⟩ := e
  cases fault with
  | none => exact iff_of_true rfl rfl
  | some fault => cases format <;> exact iff_of_false Nat.one_ne_zero (Option.some_ne_none _)

variable {arguments : List String}

/-- A run whose inputs can be loaded carries out its plan. -/
theorem run_program_of_loads
    (asked : CommandLine.request? arguments = some (.perform o (.run r)))
    (loads : Loads w o r t entries) :
    (program arguments : StateM Workspace Screen).run w =
      ((Command.carryOut (t.planRun none o r entries) : StateM Workspace Ending).run w).map
        (Ending.screen o.format) id := by
  rw [run_program asked, Command.performIn, StateT.run_bind, Command.run_planIn loads]
  rfl

/-- A run that has ended well has loaded its inputs. -/
theorem exists_loads_of_exit (asked : CommandLine.request? arguments = some (.perform o (.run r)))
    (succeeds : ((program arguments : StateM Workspace Screen).run w).1.exit = 0) :
    ∃ t entries, Loads w o r t entries := by
  cases bad : (inputFaults w (directoryAt w o) r.entries).head? with
  | none =>
    obtain ⟨⟨t, tables⟩, entries, registry⟩ := (exists_load_iff w).2 (List.head?_eq_none_iff.1 bad)
    exact ⟨t, entries, tables, registry⟩
  | some fault =>
    rw [run_program asked, Command.performIn_badInputs bad, Prod.map_fst,
      Ending.exit_screen_eq_zero_iff] at succeeds
    cases succeeds

/-- A run whose inputs can be loaded ends well exactly when its files can be written. -/
theorem exit_eq_zero_iff (asked : CommandLine.request? arguments = some (.perform o (.run r)))
    (loads : Loads w o r t entries) :
    ((program arguments : StateM Workspace Screen).run w).1.exit = 0 ↔
      ∀ path ∈ r.paths, w.IsWritable path := by
  obtain ⟨m, -, plan⟩ := t.exists_planRun_eq none o r entries
  have files : (∀ path ∈ r.paths, w.IsWritable path) ↔
      ∀ f ∈ (t.planRun none o r entries).files, w.IsWritable f.1 := by
    rw [plan, ← r.map_filesWith, List.forall_mem_map]
  rw [run_program_of_loads asked loads, files, ← Workspace.writeFiles_eq_none_iff,
    Prod.map_fst, Ending.exit_screen_eq_zero_iff]
  rcases run : (Host.writeFiles (t.planRun none o r entries).files : StateM Workspace _).run w with
    ⟨_ | ⟨path, reason⟩, w'⟩
  · rw [Command.run_carryOut_of_none run]
    exact iff_of_true rfl rfl
  · rw [Command.run_carryOut_of_some run]
    exact iff_of_false (Option.some_ne_none _) (Option.some_ne_none _)

/-- A run that can load its inputs and write its files delivers the reports. -/
theorem exists_delivers (asked : CommandLine.request? arguments = some (.perform o (.run r)))
    (loads : Loads w o r t entries) (writable : ∀ path ∈ r.paths, w.IsWritable path)
    (apart : r.SetsApart w) :
    ∃ screen after, (program arguments : StateM Workspace Screen).run w = (screen, after) ∧
      Delivers (t.reportText r.diagnostics entries) t entries o r screen after := by
  obtain ⟨m, records, plan⟩ := t.exists_planRun_eq none o r entries
  -- all files are written
  have paths : ∀ f ∈ (t.planRun none o r entries).files, w.IsWritable f.1 := by
    rw [plan, ← List.forall_mem_map, r.map_filesWith]
    exact writable
  obtain ⟨w', run⟩ : ∃ w', (Host.writeFiles (t.planRun none o r entries).files :
      StateM Workspace _).run w = (none, w') :=
    ⟨_, Prod.ext (Workspace.writeFiles_eq_none_iff.2 paths) rfl⟩
  have ended := run_program_of_loads asked loads
  rw [Command.run_carryOut_of_none run] at ended
  refine ⟨_, w', ended, rfl, ?delivered, m, records, ?recorded, ?closed⟩
  case delivered =>
    rw [RunRequest.delivered]
    cases hp : r.out with
    | none => simp [plan, hp, Ending.screen]
    | some path =>
      rw [plan] at run
      exact read_out_writeFiles hp run apart
  case recorded =>
    intro path hp
    rw [plan] at run
    exact read_manifest_writeFiles hp run
  case closed =>
    intro out
    cases hq : o.quiet <;> simp [plan, Ending.screen, Option.isNone_eq_false_iff.2 out, out, hq]

/-- **The bytes of the reports do not depend on where or how they are produced.**  A run that ends
well has loaded tables and entries.  These and the choice of diagnostics determine a text, and every
run that works with the same, wherever it takes them from, delivers this text: whether it shows the
reports or writes them to a file, shares propagations or not, writes a summary and a manifest or
not, is quiet or not, and in both formats.  The manifest records exactly these bytes.  Such a run
ends well when its files can be written, as those of the first could; the reports must only go to a
place of their own. -/
theorem program_reports (asked : CommandLine.request? arguments = some (.perform o (.run r)))
    (succeeds : ((program arguments : StateM Workspace Screen).run w).1.exit = 0) :
    ∃ t entries, Loads w o r t entries ∧ (∀ path ∈ r.paths, w.IsWritable path) ∧
      ∀ {u : Workspace} {arguments' : List String} {o' : Options} {r' : RunRequest},
        CommandLine.request? arguments' = some (.perform o' (.run r')) →
        Loads u o' r' t entries → r'.diagnostics = r.diagnostics →
        (∀ path ∈ r'.paths, u.IsWritable path) → r'.SetsApart u →
        ∃ screen after, (program arguments' : StateM Workspace Screen).run u = (screen, after) ∧
          Delivers (t.reportText r.diagnostics entries) t entries o' r' screen after := by
  obtain ⟨t, entries, loads⟩ := exists_loads_of_exit asked succeeds
  refine ⟨t, entries, loads, (exit_eq_zero_iff asked loads).1 succeeds, ?_⟩
  intro u arguments' o' r' asked' loads' diagnostics writable apart
  rw [← diagnostics]
  exact exists_delivers asked' loads' writable apart

end

/-! ## A run that ends well -/

section

variable {α : Type} {w : Workspace} {path : String} {read : Yaml → Option α} {x : α}

/-- The file at a path holds the text of a document. -/
def Holds (w : Workspace) (path : String) (read : Yaml → Option α) (x : α) : Prop :=
  ∃ text : String, w.read path = .ok text.toUTF8 ∧ Yaml.readAs? read text = some x

theorem Holds.run (h : Holds w path read x) :
    (readDocument read path : ExceptT LoadFault (StateM Workspace) α).run.run w = (.ok x, w) := by
  obtain ⟨text, file, parsed⟩ := h
  have bytes : valueAt w (Host.readFile path) = .ok text.toUTF8 := file
  have decoded : valueAt w (Host.readText path) = .ok text := by
    rw [valueAt, Host.readText, (Host.ReadsOnly.readFile path).run_bind, bytes]
    simp only [Except.bind, fromUTF8?_toUTF8]
    rfl
  rw [readDocument, ExceptT.run_mk, (Host.readText_quiet path).run_bind, decoded]
  simp only [parsed]
  rfl

theorem run_readDocument?_of_absent (read : Yaml → Option α) (absent : w.isThere path = false) :
    (readDocument? read path : ExceptT LoadFault (StateM Workspace) (Option α)).run.run w =
      (.ok none, w) := by
  have there : valueAt w (Host.isThere path) = false := absent
  change (ExceptT.lift (Host.isThere path) >>= _ :
    ExceptT LoadFault (StateM Workspace) _).run.run w = _
  rw [ExceptT.run_bind_lift, (Host.ReadsOnly.isThere path).run_bind, there]
  rfl

/-- Tables are loaded from the files that hold their documents. -/
theorem Tables.valueAt_load {directory : String} {d : TableDocuments} {t : Tables}
    (run : (TableDocuments.load directory : ExceptT LoadFault (StateM Workspace) _).run.run w =
      (.ok d, w)) (built : d.build = .ok t) : valueAt w (Tables.load directory).run = .ok t := by
  rw [valueAt, Tables.load, run_bind_of_ok _ run, built]
  rfl

/-- The tokens of a text that is given by its characters. -/
theorem Yaml.tokens?_ofList (cs : List Char) :
    tokens? (String.ofList cs) =
      if cs.all isAllowed then
        Lexer.run? (cs.length + 1) ⟨⟨cs, 0, 0, 0⟩, [], true, none, [], [], usualHandles, []⟩
      else none := by
  rw [tokens?, Lexer.start, Cursor.start, ← String.length_toList, String.toList_ofList]

end

/-- The documents of a table directory with one folio and one zone. -/
def deliveryDocuments : TableDocuments where
  markers := ⟨["ch", "sh"], ∅, ["y"], []⟩
  folios := [⟨"f1", ["e", "od"]⟩]
  spreads := none
  zones := ⟨[⟨"C", none⟩], ∅⟩
  classes := (List.range 49).map fun i ↦ ⟨i + 1, .atomic, []⟩
  targets := [⟨"T1", [1, 10]⟩]
  settings := .default

theorem deliveryDocuments_accepted : deliveryDocuments.build.toOption.isSome = true := by
  decide +kernel

/-- The characters of the document on classes, row by row. -/
def classCharacters : List Char :=
  (List.range 49).flatMap fun i ↦
    "- id: ".toList ++ Nat.toDigits 10 (i + 1) ++ "\n  kind: atomic\n".toList

/-- The document on classes as text.  It stays folded so that a workspace can be evaluated without
its characters. -/
@[irreducible]
def classRows : String := .ofList classCharacters

/-- The documents as files, and a registry. -/
def deliveryWorkspace : Workspace where
  files := .ofList [
    ("t/markers.yaml", "prefixes: [ch, sh]\nsuffixes: [y]\n".toUTF8),
    ("t/folios.yaml", "- id: f1\n  vocabulary: [e, od]\n".toUTF8),
    ("t/zones.yaml", "zones:\n  - label: C\n".toUTF8),
    ("t/classes.yaml", classRows.toUTF8),
    ("t/targets.yaml", "- id: T1\n  footprint: [1, 10]\n".toUTF8),
    ("e.tsv", "e1\tchey.shod\ne2\tchod\n".toUTF8)]
  environment := ∅

theorem readAs?_classCharacters :
    Yaml.readAs? (Node.list? ClassDocument.read?) (.ofList classCharacters) =
      some deliveryDocuments.classes := by
  rw [Yaml.readAs?, Yaml.read?, Yaml.tokens?_ofList]
  decide +kernel

theorem classRows_eq : classRows = .ofList classCharacters := by
  unfold classRows
  rfl

theorem readAs?_classRows :
    Yaml.readAs? (Node.list? ClassDocument.read?) classRows = some deliveryDocuments.classes :=
  Eq.trans (congrArg _ classRows_eq) readAs?_classCharacters

theorem load_deliveryWorkspace :
    (TableDocuments.load "t" : ExceptT LoadFault (StateM Workspace) TableDocuments).run.run
      deliveryWorkspace = (.ok deliveryDocuments, deliveryWorkspace) := by
  have markers : Holds deliveryWorkspace (Path.join "t" markersFile) MarkersDocument.read?
      deliveryDocuments.markers :=
    ⟨"prefixes: [ch, sh]\nsuffixes: [y]\n", rfl, by decide +kernel⟩
  have folios : Holds deliveryWorkspace (Path.join "t" "folios.yaml")
      (Node.list? FolioDocument.read?) deliveryDocuments.folios :=
    ⟨"- id: f1\n  vocabulary: [e, od]\n", rfl, by decide +kernel⟩
  have zones : Holds deliveryWorkspace (Path.join "t" "zones.yaml") ZonesDocument.read?
      deliveryDocuments.zones := ⟨"zones:\n  - label: C\n", rfl, by decide +kernel⟩
  have classes : Holds deliveryWorkspace (Path.join "t" "classes.yaml")
      (Node.list? ClassDocument.read?) deliveryDocuments.classes :=
    ⟨classRows, rfl, readAs?_classRows⟩
  have targets : Holds deliveryWorkspace (Path.join "t" "targets.yaml")
      (Node.list? TargetDocument.read?) deliveryDocuments.targets :=
    ⟨"- id: T1\n  footprint: [1, 10]\n", rfl, by decide +kernel⟩
  rw [TableDocuments.load, run_bind_of_ok _ markers.run, run_bind_of_ok _ folios.run,
    run_bind_of_ok _ (run_readDocument?_of_absent _ (by decide +kernel)),
    run_bind_of_ok _ zones.run, run_bind_of_ok _ classes.run, run_bind_of_ok _ targets.run,
    run_bind_of_ok _ (run_readDocument?_of_absent _ (by decide +kernel))]
  rfl

/-- What the run is told that writes its reports to a file. -/
def writingRequest : RunRequest :=
  ⟨"e.tsv", some "out.jsonl", some "s.json", some "m.json", true, true⟩

/-- What the run is told that shows them, without sharing and without a summary. -/
def showingRequest : RunRequest := ⟨"e.tsv", none, none, some "m.json", true, false⟩

def writingArguments : List String :=
  ["--tables", "t", "run", "--entries", "e.tsv", "--out", "out.jsonl", "--summary", "s.json",
    "--manifest", "m.json", "--diagnostics"]

def showingArguments : List String :=
  ["--tables", "t", "--format", "json", "--quiet", "run", "--entries", "e.tsv", "--manifest",
    "m.json", "--diagnostics", "--no-dedupe"]

theorem writingArguments_request : CommandLine.request? writingArguments =
    some (.perform ⟨some "t", .pretty, false⟩ (.run writingRequest)) := by
  decide +kernel

theorem showingArguments_request : CommandLine.request? showingArguments =
    some (.perform ⟨some "t", .json, true⟩ (.run showingRequest)) := by
  decide +kernel

/-- The tables that the documents describe. -/
def deliveryTables : Tables := deliveryDocuments.build.toOption.get deliveryDocuments_accepted

/-- The entries of the registry. -/
def deliveryEntries : List Entry := [⟨"e1", ["chey", "shod"]⟩, ⟨"e2", ["chod"]⟩]

theorem loads_deliveryWorkspace {o : Options} {r : RunRequest} (directory : o.tables = some "t")
    (registry : r.entries = "e.tsv") :
    Loads deliveryWorkspace o r deliveryTables deliveryEntries := by
  constructor
  · rw [directoryAt, directory]
    exact Tables.valueAt_load load_deliveryWorkspace (eq_ok_get deliveryDocuments_accepted)
  · rw [registry]
    decide +kernel

theorem isWritable_writingRequest :
    ∀ path ∈ writingRequest.paths, deliveryWorkspace.IsWritable path := by
  have resolved : ∀ path ∈ writingRequest.paths, Path.withoutSlashes path = path ∧
      deliveryWorkspace.resolve path = .ok (.within [path.toList]) ∧
      deliveryWorkspace.hasDirectory [path.toList] = false := by
    decide +kernel
  exact fun path hp ↦ ⟨(resolved path hp).1, _, (resolved path hp).2⟩

theorem program_reports_sample :
    CommandLine.request? writingArguments =
        some (.perform ⟨some "t", .pretty, false⟩ (.run writingRequest)) ∧
      CommandLine.request? showingArguments =
        some (.perform ⟨some "t", .json, true⟩ (.run showingRequest)) ∧
      ∃ written shown after after',
        (program writingArguments : StateM Workspace Screen).run deliveryWorkspace =
          (written, after) ∧
        (program showingArguments : StateM Workspace Screen).run deliveryWorkspace =
          (shown, after') ∧
        written.exit = 0 ∧ shown.exit = 0 ∧
        after.read "out.jsonl" = .ok shown.out.toUTF8 := by
  have succeeds : ((program writingArguments : StateM Workspace Screen).run
      deliveryWorkspace).1.exit = 0 :=
    (exit_eq_zero_iff writingArguments_request (loads_deliveryWorkspace rfl rfl)).2
      isWritable_writingRequest
  have others : ∀ path ∈ ["s.json", "m.json"],
      deliveryWorkspace.resolve path ≠ deliveryWorkspace.resolve "out.jsonl" := by
    decide +kernel
  have apart : writingRequest.SetsApart deliveryWorkspace := by
    rintro out ⟨⟩ path hp
    exact others path (by simpa [writingRequest, eq_comm] using hp)
  obtain ⟨t, entries, loads, writable, delivers⟩ :=
    program_reports writingArguments_request succeeds
  obtain ⟨written, after, run, writes⟩ :=
    delivers writingArguments_request loads rfl writable apart
  have loads' : Loads deliveryWorkspace ⟨some "t", .json, true⟩ showingRequest t entries :=
    ⟨loads.tables, loads.registry⟩
  have writable' : ∀ path ∈ showingRequest.paths, deliveryWorkspace.IsWritable path := by
    intro path hp
    exact writable path (List.mem_append_right _ hp)
  obtain ⟨shown, after', run', shows⟩ := delivers showingArguments_request loads' rfl writable'
    (fun out hout ↦ nomatch hout)
  have same : after.read "out.jsonl" = .ok shown.out.toUTF8 :=
    writes.reports.trans shows.reports.symm
  exact ⟨writingArguments_request, showingArguments_request, written, shown, after, after', run,
    run', writes.exit, shows.exit, same⟩

end ManuscriptReach
