import ManuscriptReach.Host
import ManuscriptReach.Path

/-!
# Workspaces

A workspace is a directory held in memory, with the environment variables of the
commands that run in it.  Directories are there as far as files lie in them.  Outside
the workspace there is nothing but the directories above it.
-/

namespace ManuscriptReach

/-- Files in a directory, and environment variables. -/
structure Workspace where
  /-- The files under their paths, without needless parts. -/
  files : StringMap ByteArray
  /-- The environment variables. -/
  environment : StringMap String

namespace Workspace

/-- Some files, without environment variables. -/
def ofFiles (files : List (String × String)) : Workspace where
  files := .ofList (files.map fun p ↦
    (Path.ofParts ((Path.parts p.1).filter Path.isNaming), p.2.toUTF8))
  environment := ∅

/-- The file with the given names on the way to it. -/
def file? (w : Workspace) (names : List (List Char)) : Option ByteArray :=
  w.files.get? (Path.ofParts names)

/-- Whether a file lies below the directory with the given names on the way to it. -/
def hasDirectory (w : Workspace) (names : List (List Char)) : Bool :=
  names.isEmpty || w.files.keys.any fun k ↦ names.isPrefixOf (Path.parts k).dropLast

/-- Where a path leads. -/
inductive Place where
  /-- To a directory above the workspace. -/
  | above
  /-- To what has the given names on the way to it. -/
  | within (names : List (List Char))
deriving DecidableEq

/-- The number of bytes that a name can have. -/
def nameLimit : Nat := 255

/-- The number of bytes at which a path is too long. -/
def pathLimit : Nat := 4096

/-- The place with a name in a directory. -/
def Place.enter (place : Place) (name : List Char) : Except FileFault Place :=
  if nameLimit < (String.ofList name).utf8ByteSize then .error .tooLong
  else
    match place with
    | .above => .error .notFound
    | .within names => .ok (.within (names ++ [name]))

/-- The directory around a place. -/
def Place.leave : Place → Place
  | .above => .above
  | .within names => if names = [] then .above else .within names.dropLast

/-- Why a place is no directory, if it is none. -/
def directoryFault? (w : Workspace) : Place → Option FileFault
  | .above => none
  | .within names =>
    if w.hasDirectory names then none
    else if (w.file? names).isSome then some .notDirectory
    else some .notFound

/-- Follows the parts of a path from a place.  Every place but the last must be a directory. -/
def follow (w : Workspace) (place : Place) : List (List Char) → Except FileFault Place
  | [] => .ok place
  | part :: parts =>
    match w.directoryFault? place with
    | some fault => .error fault
    | none =>
      if !Path.isNaming part then w.follow place parts
      else if part = ['.', '.'] then w.follow place.leave parts
      else (place.enter part).bind fun next ↦ w.follow next parts

/-- Where a path leads.  It starts at the workspace, or above it when it begins with a slash. -/
def resolve (w : Workspace) (path : String) : Except FileFault Place :=
  if pathLimit ≤ path.utf8ByteSize then .error .tooLong
  else
    match Path.parts path with
    | [] => .error .notFound
    | [[]] => .error .notFound
    | [] :: parts => w.follow .above parts
    | parts => w.follow (.within []) parts

/-- Whether a file or directory is at a path. -/
def isThere (w : Workspace) (path : String) : Bool :=
  match w.resolve path with
  | .ok .above => true
  | .ok (.within names) => w.hasDirectory names || (w.file? names).isSome
  | .error _ => false

/-- The bytes of the file at a path. -/
def read (w : Workspace) (path : String) : Except FileFault ByteArray := do
  match ← w.resolve path with
  | .above => throw .isDirectory
  | .within names =>
    if w.hasDirectory names then throw .isDirectory
    else (w.file? names).elim (.error .notFound) .ok

/-- The workspace with a text as the file at a path.  A path with a slash at its end can only be
that of a directory. -/
def write (w : Workspace) (path text : String) : Except FileFault Workspace := do
  match ← w.resolve (Path.withoutSlashes path) with
  | .above => throw .isDirectory
  | .within names =>
    if Path.withoutSlashes path ≠ path ∨ w.hasDirectory names then throw .isDirectory
    else return { w with files := w.files.insert (Path.ofParts names) text.toUTF8 }

instance : Host (StateM Workspace) where
  environment? name := return (← get).environment.get? name
  isThere path := return (← get).isThere path
  readFile path := return (← get).read path
  writeFile path text := do
    match (← get).write path text with
    | .ok w => set w; return .ok ()
    | .error fault => return .error fault
  stamp := return none

end Workspace

end ManuscriptReach
