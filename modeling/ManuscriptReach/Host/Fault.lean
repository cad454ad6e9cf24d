/-!
# What can be wrong with a file
-/

namespace ManuscriptReach

/-- Why a file could not be used. -/
inductive FileFault where
  /-- Nothing is at the path. -/
  | notFound
  /-- A directory on the way to the path is no directory. -/
  | notDirectory
  /-- A directory is at the path. -/
  | isDirectory
  /-- The path, or a name in it, is too long. -/
  | tooLong
  /-- The bytes are not UTF-8. -/
  | undecodable
  /-- Something else, in the host's words. -/
  | other (reason : String)
deriving DecidableEq

/-- What the user is told. -/
def FileFault.message : FileFault → String
  | notFound => "No such file or directory (os error 2)"
  | notDirectory => "Not a directory (os error 20)"
  | isDirectory => "Is a directory (os error 21)"
  | tooLong => "File name too long (os error 36)"
  | undecodable => "stream did not contain valid UTF-8"
  | other reason => reason

end ManuscriptReach
