import ManuscriptReach.Host.Fault
import ManuscriptReach.Manifest

/-!
# Hosts

A host is what a command runs on: files under paths, environment variables, and a
clock that may stamp a run.  Commands are written for any monad that offers these,
so that they run on a machine as well as on a workspace held in memory.
-/

namespace ManuscriptReach

/-- The services of a host. -/
class Host (m : Type → Type) where
  /-- The value of an environment variable. -/
  environment? : String → m (Option String)
  /-- Whether a file or directory is at a path. -/
  isThere : String → m Bool
  /-- The bytes of the file at a path. -/
  readFile : String → m (Except FileFault ByteArray)
  /-- Creates the file at a path, or empties it, and writes a text to it. -/
  writeFile : String → String → m (Except FileFault Unit)
  /-- The stamp of the run, if the host gives one. -/
  stamp : m (Option RunStamp)

namespace Host

variable {m : Type → Type} [Monad m] [Host m]

/-- The text of the file at a path. -/
def readText (path : String) : m (Except FileFault String) := do
  return (← readFile path).bind fun bytes ↦
    (String.fromUTF8? bytes).elim (.error .undecodable) .ok

/-- Writes files one after the other, up to the first that cannot be written, whose path and fault
are the result. -/
def writeFiles : List (String × String) → m (Option (String × FileFault))
  | [] => return none
  | (path, text) :: files => do
    match ← writeFile path text with
    | .ok () => writeFiles files
    | .error fault => return some (path, fault)

end Host

end ManuscriptReach
