import ManuscriptReach.Tables.Codec
import ManuscriptReach.Yaml.Node
import ManuscriptReach.Host
import ManuscriptReach.Path

/-!
# Table directories

A table directory holds one YAML file for each document.  The files on spreads and on
settings may be missing.  Documents are read in a fixed order, and the first that
cannot be read or makes no sense is reported; only then are they checked.
-/

namespace ManuscriptReach

/-- Why tables could not be loaded. -/
inductive LoadFault where
  /-- A file could not be read. -/
  | unreadable (path : String) (reason : FileFault)
  /-- A file is not the document that it should be. -/
  | malformed (path : String)
  /-- The documents do not make up tables. -/
  | invalid (directory : String) (reason : TableFault)
deriving DecidableEq

namespace LoadFault

/-- What could not be done. -/
def headline : LoadFault → String
  | unreadable path _ => "Failed to read " ++ path
  | malformed path => "Failed to parse " ++ path
  | invalid directory _ => "Invalid tables in " ++ directory

/-- What the user is told: what could not be done, and why. -/
def message (f : LoadFault) : String :=
  match f with
  | unreadable _ reason => f.headline ++ ": " ++ reason.message
  | malformed _ => f.headline
  | invalid _ reason => f.headline ++ ": " ++ reason.message

end LoadFault

/-- The file that marks a table directory. -/
def markersFile : String := "markers.yaml"

section

variable {m : Type → Type} [Monad m] [Host m] {α : Type}

/-- Reads a document from the file at a path. -/
def readDocument (read : Yaml → Option α) (path : String) : ExceptT LoadFault m α :=
  ExceptT.mk do
    match ← Host.readText path with
    | .error reason => return .error (.unreadable path reason)
    | .ok text => return (Yaml.readAs? read text).elim (.error (.malformed path)) .ok

/-- Reads a document from the file at a path, if something is there. -/
def readDocument? (read : Yaml → Option α) (path : String) : ExceptT LoadFault m (Option α) := do
  if ← (Host.isThere path : m Bool) then return some (← readDocument read path) else return none

/-- Reads the documents in a directory. -/
def TableDocuments.load (directory : String) : ExceptT LoadFault m TableDocuments := do
  let path := Path.join directory
  let markers ← readDocument MarkersDocument.read? (path markersFile)
  let folios ← readDocument (Node.list? FolioDocument.read?) (path "folios.yaml")
  let spreads ← readDocument? readSpreads? (path "spreads.yaml")
  let zones ← readDocument ZonesDocument.read? (path "zones.yaml")
  let classes ← readDocument (Node.list? ClassDocument.read?) (path "classes.yaml")
  let targets ← readDocument (Node.list? TargetDocument.read?) (path "targets.yaml")
  let settings ← readDocument? SettingsDocument.read? (path "settings.yaml")
  return ⟨markers, folios, spreads, zones, classes, targets, settings.getD .default⟩

/-- Loads the tables in a directory. -/
def Tables.load (directory : String) : ExceptT LoadFault m Tables := do
  match (← TableDocuments.load directory).build with
  | .ok tables => return tables
  | .error reason => throw (.invalid directory reason)

end

/-- The name of a table directory that is not named otherwise. -/
def defaultDirectory : String := "tables"

/-- The environment variable that names the table directory. -/
def directoryVariable : String := "FOLIO_REACH_TABLES"

/-- The environment variable that names a place at or above which a table directory may be. -/
def searchVariable : String := "CARGO_MANIFEST_DIR"

/-- How many levels are searched. -/
def searchLevels : Nat := 3

section

variable {m : Type → Type} [Monad m] [Host m]

/-- Whether there is a table directory at a path. -/
def isTableDirectory (directory : String) : m Bool := Host.isThere (Path.join directory markersFile)

/-- The first table directory under the default name at a place or above it. -/
def searchUpwards : Nat → String → m (Option String)
  | 0, _ => return none
  | levels + 1, place => do
    let candidate := Path.join place defaultDirectory
    if ← isTableDirectory candidate then return some candidate
    else
      match Path.parent? place with
      | some above => searchUpwards levels above
      | none => return none

/-- The table directory of a command that does not name one: the one that a variable names, else
the default one if it is there, else one found by searching, else the default one. -/
def tableDirectory (environment? : String → m (Option String)) : m String := do
  match ← environment? directoryVariable with
  | some directory => return directory
  | none =>
    if ← isTableDirectory defaultDirectory then return defaultDirectory
    else
      match ← environment? searchVariable with
      | some place => return (← searchUpwards searchLevels place).getD defaultDirectory
      | none => return defaultDirectory

end

end ManuscriptReach
