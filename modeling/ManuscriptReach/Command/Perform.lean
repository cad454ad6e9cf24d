import ManuscriptReach.Command.Plan
import ManuscriptReach.Tables.Directory
import ManuscriptReach.Host.EnvironmentFile
import ManuscriptReach.Registry

/-!
# Performing commands

A command reads the tables and then, for a run, the registry.  When either fails,
nothing has been shown or written.  Otherwise the command's plan is carried out.
-/

namespace ManuscriptReach

/-- Why a command failed. -/
inductive CommandFault where
  /-- The tables could not be loaded. -/
  | tables (reason : LoadFault)
  /-- The registry's file could not be read. -/
  | unreadable (path : String) (reason : FileFault)
  /-- The registry has a fault. -/
  | registry (path : String) (reason : RegistryFault)
  /-- A file could not be written. -/
  | unwritable (path : String) (reason : FileFault)
deriving DecidableEq

/-- What the user is told.  A registry that cannot be read is reported with its cause named twice,
once by itself. -/
def CommandFault.message : CommandFault → String
  | tables reason => reason.message
  | unreadable path reason =>
    unreadableRegistryMessage path reason.message ++ ": " ++ reason.message
  | registry path reason =>
    match reason.fault with
    | .undecodable => reason.message path ++ ": " ++ FileFault.undecodable.message
    | _ => reason.message path
  | unwritable path reason => "Failed to create " ++ path ++ ": " ++ reason.message

/-- How a command ended. -/
structure Ending where
  /-- What it showed. -/
  shown : String
  /-- Why it failed, if it did. -/
  fault : Option CommandFault
deriving DecidableEq

/-- What is left of a program: its exit code and its two streams of text. -/
structure Screen where
  exit : Nat
  out : String
  err : String
deriving DecidableEq

/-- How an ending is reported: a fault goes to one stream as JSON or to the other as text. -/
def Ending.screen (format : OutputFormat) (e : Ending) : Screen :=
  match e.fault with
  | none => ⟨0, e.shown, ""⟩
  | some fault =>
    match format with
    | .json =>
      ⟨1, e.shown ++ (Json.record [("error", .ofString fault.message)]).compact ++ "\n", ""⟩
    | .pretty => ⟨1, e.shown, "error: " ++ fault.message ++ "\n"⟩

section

variable {m : Type → Type} [Monad m] [Host m]

/-- Reads the registry at a path. -/
def Registry.load (path : String) : ExceptT CommandFault m (List Entry) :=
  ExceptT.mk do
    match ← Host.readFile path with
    | .error reason => return .error (.unreadable path reason)
    | .ok bytes =>
      return (Registry.read (.ofPath path) bytes).mapError (.registry path)

namespace Command

/-- The plan of a command once the tables have been loaded. -/
def planWith (tables : Tables) (o : Options) : Command → ExceptT CommandFault m Plan
  | .run r => do
    let entries ← Registry.load r.entries
    return tables.planRun (← (Host.stamp : m (Option RunStamp))) o r entries
  | .decompose tokens => return tables.planDecompose o.format tokens
  | .entry id tokens => return tables.planEntry o.format ⟨id, tokens⟩
  | .checkTables => return tables.planCheck o.format

/-- The plan of a command over the tables in a directory. -/
def planIn (directory : String) (o : Options) (c : Command) : ExceptT CommandFault m Plan := do
  c.planWith (← (Tables.load directory).adapt .tables) o

/-- Carries out a plan. -/
def carryOut (p : Plan) : m Ending := do
  match ← Host.writeFiles p.files with
  | none => return ⟨p.shown ++ p.closing, none⟩
  | some (path, reason) => return ⟨p.shown, some (.unwritable path reason)⟩

/-- Performs a command over the tables in a directory. -/
def performIn (directory : String) (o : Options) (c : Command) : m Ending := do
  match ← (c.planIn directory o).run with
  | .error fault => return ⟨"", some fault⟩
  | .ok plan => carryOut plan

/-- Performs a command; `assigned` are variables that the host does not know. -/
def perform (assigned : List (String × String)) (o : Options) (c : Command) : m Ending := do
  let directory ←
    match o.tables with
    | some directory => pure directory
    | none => tableDirectory (EnvironmentFile.valueAmong? assigned)
  c.performIn directory o

end Command

/-- The name and version of the program. -/
def programVersion : String := "folio-reach 0.1.0"

/-- What is said of a command line that makes no sense. -/
def usage : String :=
  "usage: folio-reach [--tables DIR] [--format json|pretty] [--quiet] " ++
    "run|decompose|entry|check-tables ..."

/-- Runs the program on its arguments. -/
def program (arguments : List String) : m Screen := do
  let assigned ← EnvironmentFile.load
  match CommandLine.request? arguments with
  | none => return ⟨2, "", usage ++ "\n"⟩
  | some .version => return ⟨0, programVersion ++ "\n", ""⟩
  | some (.perform o c) => return (← c.perform assigned o).screen o.format

end

end ManuscriptReach
