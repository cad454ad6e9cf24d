/-!
# Paths

A path is a text cut by slashes.  Empty parts and single points between slashes say
nothing, except a point at the very front.
-/

namespace ManuscriptReach.Path

/-- The texts between the slashes of a path. -/
def parts (path : String) : List (List Char) := path.toList.splitOn '/'

/-- Whether a part between slashes names something. -/
def isNaming (part : List Char) : Bool := part != [] && part != ['.']

/-- The text of some parts. -/
def ofParts (ps : List (List Char)) : String := String.ofList (['/'].intercalate ps)

/-- The last name of a path, if it ends in one. -/
def fileName? (path : String) : Option (List Char) :=
  ((parts path).filter isNaming).getLast?.filter fun name ↦ name != ['.', '.']

/-- What follows the last point of a path's last name; a point at the front of the name does not
count. -/
def extension? (path : String) : Option String := do
  let backwards := (← fileName? path).reverse
  let stem := (backwards.dropWhile fun c ↦ c != '.').drop 1
  if stem = [] then none
  else return String.ofList (backwards.takeWhile fun c ↦ c != '.').reverse

/-- Some parts without those at the end that name nothing. -/
def trimParts (ps : List (List Char)) : List (List Char) :=
  (ps.reverse.dropWhile fun p ↦ !isNaming p).reverse

/-- A path without its last part, if it has one. -/
def parent? (path : String) : Option String :=
  match parts path with
  | [] => none
  | first :: rest =>
    match trimParts rest with
    | [] => if first = [] then none else some ""
    | p :: ps =>
      let above := trimParts (p :: ps).dropLast
      some (if first = [] ∧ above = [] then "/" else ofParts (first :: above))

/-- A path without slashes at its end, unless it has nothing else. -/
def withoutSlashes (path : String) : String :=
  match path.toList.reverse.dropWhile (· == '/') with
  | [] => path
  | c :: cs => String.ofList (c :: cs).reverse

/-- The path of a name in a directory. -/
def join (directory name : String) : String :=
  if directory = "" ∨ directory.toList.getLast? = some '/' then directory ++ name
  else directory ++ "/" ++ name

end ManuscriptReach.Path
