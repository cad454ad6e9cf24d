import ManuscriptReach.Host
import ManuscriptReach.Text.Blank
import ManuscriptReach.Text.Alphanumeric

/-!
# Environment files

An environment file assigns texts to variables, one assignment a line.  A value may
stand in quotes and run over several lines, may use backslash escapes, and may refer
to other variables by `$name` or `${name}`, except in single quotes; without braces a
name goes as far as there are letters and digits.  Lines after the first that makes no
sense do not count.

A variable of the host keeps its value, and of two assignments to one variable the
first counts.
-/

namespace ManuscriptReach.EnvironmentFile

/-- A piece of a value. -/
inductive Piece where
  /-- A character that stands for itself. -/
  | char (c : Char)
  /-- The value of a variable. -/
  | reference (name : String)
deriving DecidableEq

/-- A line that assigns a value to a variable. -/
structure Assignment where
  name : String
  value : List Piece
deriving DecidableEq

/-- Where the cut into lines stands within a line. -/
inductive LineMode where
  /-- Outside quotes. -/
  | bare
  /-- Outside quotes, after a blank: here a comment may begin. -/
  | blank
  /-- In single quotes. -/
  | single
  /-- In double quotes. -/
  | double
  /-- After a backslash in a mode. -/
  | escape (back : LineMode)

/-- The mode after a character. -/
def LineMode.next (c : Char) : LineMode → LineMode
  | .bare =>
    if isBlank c && c != '\n' && c != '\r' then .blank
    else if c == '\\' then .escape .bare
    else if c == '"' then .double
    else if c == '\'' then .single
    else .bare
  | .blank =>
    if c == '\\' then .escape .bare
    else if c == '"' then .double
    else if c == '\'' then .single
    else .bare
  | .single => if c == '\\' then .escape .single else if c == '\'' then .bare else .single
  | .double => if c == '\\' then .escape .double else if c == '"' then .bare else .double
  | .escape back => back

/-- What follows the next line feed. -/
def afterLine (cs : List Char) : List Char := (cs.dropWhile (· != '\n')).drop 1

/-- Cuts off a line, which ends at a line feed outside quotes or at a comment; `done` is the line
so far, backwards. -/
def cutLine? (mode : LineMode) (done : List Char) : List Char → Option (List Char × List Char)
  | [] =>
    match mode with
    | .bare => some (done.reverse, [])
    | _ => none
  | c :: cs =>
    match mode, mode.next c with
    | .blank, next =>
      if c == '#' then some (done.reverse, afterLine cs)
      else
        match next with
        | .bare => if c == '\n' then some (done.reverse, cs) else cutLine? .bare (c :: done) cs
        | next => cutLine? next (c :: done) cs
    | _, .bare => if c == '\n' then some (done.reverse, cs) else cutLine? .bare (c :: done) cs
    | _, next => cutLine? next (c :: done) cs

/-- Where the reading of a value stands. -/
inductive ValueMode where
  /-- Outside quotes. -/
  | bare
  /-- In single quotes. -/
  | single
  /-- In double quotes. -/
  | double
  /-- After a blank that ends the value: only a comment may follow. -/
  | ending
  /-- After a backslash. -/
  | escape (back : ValueMode)
  /-- In the name of a variable. -/
  | name (back : ValueMode) (sofar : List Char)
  /-- In the name of a variable between braces. -/
  | braced (back : ValueMode) (sofar : List Char)

/-- The character for which a backslash and a character stand. -/
def escaped? (c : Char) : Option Char :=
  if c ∈ ['\\', '\'', '"', '$', ' '] then some c else if c == 'n' then some '\n' else none

/-- Reads a value. -/
def value? : ValueMode → List Char → Option (List Piece)
  | .bare, [] => some []
  | .ending, [] => some []
  | .escape .bare, [] => some []
  | .name .bare sofar, [] => some [.reference (String.ofList sofar)]
  | _, [] => none
  | .ending, c :: cs =>
    if c == ' ' || c == '\t' then value? .ending cs else if c == '#' then some [] else none
  | .escape back, c :: cs => do return .char (← escaped? c) :: (← value? back cs)
  | .single, c :: cs =>
    if c == '\'' then value? .bare cs else (value? .single cs).map (.char c :: ·)
  | .name back sofar, c :: cs =>
    if isAlphanumeric c then value? (.name back (sofar ++ [c])) cs
    else if c == '\x7b' && sofar.isEmpty then value? (.braced back []) cs
    else
      let reference := Piece.reference (String.ofList sofar)
      if c == '$' then (value? (.name back []) cs).map (reference :: ·)
      else (value? back cs).map fun ps ↦ reference :: .char c :: ps
  | .braced back sofar, c :: cs =>
    if c == '\x7d' then (value? back cs).map (.reference (String.ofList sofar) :: ·)
    else value? (.braced back (sofar ++ [c])) cs
  | .double, c :: cs =>
    if c == '$' then value? (.name .double []) cs
    else if c == '"' then value? .bare cs
    else if c == '\\' then value? (.escape .double) cs
    else (value? .double cs).map (.char c :: ·)
  | .bare, c :: cs =>
    if c == '$' then value? (.name .bare []) cs
    else if c == '\'' then value? .single cs
    else if c == '"' then value? .double cs
    else if c == '\\' then value? (.escape .bare) cs
    else if c == ' ' || c == '\t' then value? .ending cs
    else (value? .bare cs).map (.char c :: ·)

/-- Whether a name may begin with a character. -/
def beginsName (c : Char) : Bool := c.isAlpha || c == '_'

/-- Whether a character may stand in the name of an assignment. -/
def isKeyChar (c : Char) : Bool := c.isAlphanum || c == '_' || c == '.'

/-- Reads the name of a variable, and skips blanks after it. -/
def key? (cs : List Char) : Option (List Char × List Char) :=
  if cs.head?.any beginsName then
    some (cs.takeWhile isKeyChar, (cs.dropWhile isKeyChar).dropWhile isBlank)
  else none

/-- Reads the name on the left of an assignment and its equals sign.  The word `export` may stand
in front of the name. -/
def left? (cs : List Char) : Option (List Char × List Char) := do
  match ← key? cs with
  | (name, '=' :: rest) => return (name, rest)
  | (name, rest) =>
    if name = ['e', 'x', 'p', 'o', 'r', 't'] then
      match ← key? rest with
      | (name, '=' :: rest) => return (name, rest)
      | _ => none
    else none

/-- Whether a line or a value says nothing. -/
def isVoid (cs : List Char) : Bool := cs.head?.all (· == '#')

/-- Reads a line; `none` inside when it assigns nothing. -/
def line? (cs : List Char) : Option (Option Assignment) := do
  let cs := trimWhere isBlank cs
  if isVoid cs then return none
  let (name, rest) ← left? cs
  let rest := rest.dropWhile isBlank
  let value ← if isVoid rest then some [] else value? .bare rest
  return some ⟨String.ofList name, value⟩

/-- Reads the assignments of a text up to the first line that makes no sense. -/
def assignmentsOf : Nat → List Char → List Assignment
  | 0, _ => []
  | fuel + 1, cs =>
    if cs = [] then []
    else if (cs.dropWhile fun c ↦ isBlank c && c != '\n').head? == some '#' then
      assignmentsOf fuel (afterLine cs)
    else
      match cutLine? .bare [] cs with
      | none => []
      | some (line, rest) =>
        match line? line with
        | none => []
        | some none => assignmentsOf fuel rest
        | some (some a) => a :: assignmentsOf fuel rest

/-- Reads the assignments of a text.  A mark of its encoding is passed over. -/
def assignments (s : String) : List Assignment :=
  let cs := s.toList
  let cs := if cs.head? == some '\ufeff' then cs.drop 1 else cs
  assignmentsOf (cs.length + 1) cs

section

variable {m : Type → Type} [Monad m] [Host m]

/-- The value of a variable on the host, or else among some pairs. -/
def valueAmong? (pairs : List (String × String)) (name : String) : m (Option String) := do
  return (← Host.environment? name) <|> pairs.lookup name

/-- The text of a value. -/
def expand (pairs : List (String × String)) : List Piece → m String
  | [] => return ""
  | .char c :: ps => do return String.ofList [c] ++ (← expand pairs ps)
  | .reference name :: ps => do
    return (← valueAmong? pairs name).getD "" ++ (← expand pairs ps)

/-- Carries out assignments one after the other. -/
def carryOut : List (String × String) → List Assignment → m (List (String × String))
  | pairs, [] => return pairs
  | pairs, a :: as => do carryOut (pairs ++ [(a.name, ← expand pairs a.value)]) as

/-- The path of the environment file of a command. -/
def path : String := ".env"

/-- What the environment file assigns, nothing when it cannot be read. -/
def load : m (List (String × String)) := do
  match ← Host.readText path with
  | .ok text => carryOut [] (assignments text)
  | .error _ => return []

end

end ManuscriptReach.EnvironmentFile
