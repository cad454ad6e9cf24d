import ManuscriptReach.Entry.Codec
import ManuscriptReach.Text.Blank
import ManuscriptReach.Text.Line
import ManuscriptReach.Path
import ManuscriptReach.Host.Fault

/-!
# Registries

A registry lists entries, one a line.  In one format a line is a JSON object, in the
other it is an id, a tab, and tokens between blanks or points.  Blank lines and lines
that begin with `#` are passed over, but count as lines.  The ids are pairwise
different.  The first line with a fault makes the whole registry unusable.
-/

namespace ManuscriptReach

/-- How the lines of a registry are written. -/
inductive RegistryFormat where
  /-- A JSON object a line. -/
  | jsonLines
  /-- An id, a tab and tokens. -/
  | tabbed
deriving DecidableEq

namespace RegistryFormat

/-- The name of the format. -/
def name : RegistryFormat → String
  | jsonLines => "jsonl"
  | tabbed => "tsv"

/-- The format with a given name. -/
def ofName? (s : String) : Option RegistryFormat :=
  [jsonLines, tabbed].find? fun f ↦ f.name == s

/-- The format of the file at a path. -/
def ofPath (path : String) : RegistryFormat :=
  if Path.extension? path ∈ [some "jsonl", some "json"] then jsonLines else tabbed

end RegistryFormat

/-- What can be wrong with a line of a registry. -/
inductive LineFault where
  /-- Its bytes are not UTF-8. -/
  | undecodable
  /-- It is no JSON object with an id and tokens. -/
  | invalidJson
  /-- It has no tab. -/
  | missingTokens
  /-- Its id is blank. -/
  | emptyId
  /-- An earlier line has its id. -/
  | duplicateId (id : String)
deriving DecidableEq

/-- The first fault of a registry, and the number of its line, counted from one. -/
structure RegistryFault where
  line : Nat
  fault : LineFault
deriving DecidableEq

/-- What the user is told about a registry that cannot be read. -/
def unreadableRegistryMessage (path reason : String) : String :=
  "cannot read registry " ++ path ++ ": " ++ reason

/-- What the user is told about the registry at a path. -/
def RegistryFault.message (path : String) (f : RegistryFault) : String :=
  let line := "line " ++ toString f.line ++ ": "
  match f.fault with
  | .undecodable => unreadableRegistryMessage path FileFault.undecodable.message
  | .invalidJson => line ++ "invalid JSON entry"
  | .missingTokens => line ++ "expected `<id>\\t<tokens>`"
  | .emptyId => line ++ "empty entry id"
  | .duplicateId id => line ++ "duplicate entry id '" ++ id ++ "'"

namespace Registry

/-- Whether a line is passed over: it is blank, or its first character that is not is `#`. -/
def isSkipped (line : String) : Bool :=
  match line.toList.dropWhile isBlank with
  | [] => true
  | c :: _ => c == '#'

/-- Whether a character separates tokens. -/
def isSeparator (c : Char) : Bool := isBlank c || c == '.'

/-- Reads an entry from an id, a tab and tokens. -/
def readTabbed (line : String) : Except LineFault Entry :=
  match line.toList.span (· != '\t') with
  | (id, '\t' :: tokens) =>
    .ok ⟨String.ofList (trimWhere isBlank id), (runsOutside isSeparator tokens).map String.ofList⟩
  | _ => .error .missingTokens

/-- Reads an entry from a line that is not passed over. -/
def readEntry (format : RegistryFormat) (line : String) : Except LineFault Entry :=
  match format with
  | .jsonLines => (Entry.ofLine? (trimBlanks line)).elim (.error .invalidJson) .ok
  | .tabbed => readTabbed line

/-- Reads the entry of a line, if it has one. -/
def readLine (format : RegistryFormat) (line : ByteArray) : Except LineFault (Option Entry) :=
  match String.fromUTF8? line with
  | none => .error .undecodable
  | some line => if isSkipped line then .ok none else (readEntry format line).map some

/-- Checks an id against the ids of earlier lines. -/
def checkId (seen : List String) (id : String) : Except LineFault Unit :=
  if id.toList.all isBlank then .error .emptyId
  else if id ∈ seen then .error (.duplicateId id)
  else .ok ()

/-- Reads the entries of the lines from the one numbered `number` on, where `seen` are the ids of
earlier lines. -/
def readLines (format : RegistryFormat) (seen : List String) (number : Nat) :
    List ByteArray → Except RegistryFault (List Entry)
  | [] => .ok []
  | line :: lines =>
    match readLine format line with
    | .error fault => .error ⟨number, fault⟩
    | .ok none => readLines format seen (number + 1) lines
    | .ok (some e) =>
      match checkId seen e.id with
      | .error fault => .error ⟨number, fault⟩
      | .ok () => (readLines format (e.id :: seen) (number + 1) lines).map (e :: ·)

/-- Reads a registry. -/
def read (format : RegistryFormat) (bytes : ByteArray) : Except RegistryFault (List Entry) :=
  readLines format [] 1 (byteLines bytes)

end Registry

end ManuscriptReach
