import ManuscriptReach.Command.Perform
import Std.Time.DateTime
import Std.Time.Format

/-!
# The program

The machine as a host, and the entry point.
-/

namespace ManuscriptReach

/-- The time at which the program started, twice: as a date, and in milliseconds on a clock that
never goes back. -/
structure StartTime where
  date : Std.Time.Timestamp
  milliseconds : Nat

/-- A session on the machine. -/
abbrev Machine := ReaderT StartTime IO

/-- The cause of an error of the machine. -/
def FileFault.ofError : IO.Error → FileFault
  | .noFileOrDirectory _ _ _ => .notFound
  | .inappropriateType none code _ => if code = 20 then .notDirectory else .isDirectory
  | .inappropriateType (some _) code _ => if code = 20 then .notDirectory else .isDirectory
  | e@(.invalidArgument _ code _) => if code = 36 then .tooLong else .other (toString e)
  | e => .other (toString e)

/-- Does something with files, and keeps the cause when it fails. -/
def attemptFile {α : Type} (act : IO α) : IO (Except FileFault α) := do
  match ← act.toBaseIO with
  | .ok a => return .ok a
  | .error e => return .error (.ofError e)

/-- An identifier of 128 bits, all but six of them random. -/
def drawIdentifier : IO String := do
  let bytes ← IO.getRandomBytes 16
  let digits := bytes.toList.mapIdx fun i b ↦
    let n := if i = 6 then b.toNat % 16 + 64 else if i = 8 then b.toNat % 64 + 128 else b.toNat
    let sep := if i ∈ [4, 6, 8, 10] then ['-'] else []
    sep ++ [hexDigit (n / 16), hexDigit (n % 16)]
  return String.ofList digits.flatten

instance : Host Machine where
  environment? name := (IO.getEnv name : IO _)
  isThere path := show IO Bool from do
    match ← attemptFile (IO.FS.Handle.mk path .read) with
    | .ok _ => return true
    | .error fault => return fault == .isDirectory
  readFile path := attemptFile (IO.FS.readBinFile path)
  writeFile path text := attemptFile (IO.FS.writeFile path text)
  stamp := do
    let start ← read
    let id ← drawIdentifier
    let date := Std.Time.DateTime.ofTimestampWithZone start.date .UTC
    return some ⟨id, date.format "uuuu-MM-dd'T'HH:mm:ss.nnnnnnnnn'Z'", (← IO.monoMsNow) - start.milliseconds⟩

end ManuscriptReach

/-- Runs the program on the machine. -/
def main (arguments : List String) : IO UInt32 := do
  let start : ManuscriptReach.StartTime := ⟨← Std.Time.Timestamp.now, ← IO.monoMsNow⟩
  let screen ← (ManuscriptReach.program arguments : ManuscriptReach.Machine _).run start
  IO.print screen.out
  IO.eprint screen.err
  return screen.exit.toUInt32
