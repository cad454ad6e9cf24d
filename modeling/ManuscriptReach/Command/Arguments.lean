/-!
# Command lines

A command line names a verb and gives options and words.  Some options belong to one
verb; the others may stand in front of the verb as well as after it, and then count
as given after it.  At either place an option may be given once.
-/

namespace ManuscriptReach

/-- How results are shown. -/
inductive OutputFormat where
  /-- As JSON. -/
  | json
  /-- As text for readers. -/
  | pretty
deriving DecidableEq

/-- The format with a given name. -/
def OutputFormat.ofName? : String → Option OutputFormat
  | "json" => some json
  | "pretty" => some pretty
  | _ => none

/-- What every command can be told. -/
structure Options where
  /-- The table directory. -/
  tables : Option String
  /-- How results are shown. -/
  format : OutputFormat
  /-- Whether to say less. -/
  quiet : Bool
deriving DecidableEq

/-- What a run over a registry is told. -/
structure RunRequest where
  /-- The path of the registry. -/
  entries : String
  /-- Where to write the reports, if not on the screen. -/
  out : Option String
  /-- Where to write the summary. -/
  summary : Option String
  /-- Where to write the manifest. -/
  manifest : Option String
  /-- Whether reports state the intermediate figures. -/
  diagnostics : Bool
  /-- Whether entries with the same restricted middles share their propagation. -/
  shared : Bool
deriving DecidableEq

/-- What can be asked for. -/
inductive Command where
  /-- A run over a registry. -/
  | run (request : RunRequest)
  /-- The parts of some tokens. -/
  | decompose (tokens : List String)
  /-- The report on one entry. -/
  | entry (id : String) (tokens : List String)
  /-- A check of the tables. -/
  | checkTables
deriving DecidableEq

/-- What a command line asks for. -/
inductive Request where
  /-- The version of the program. -/
  | version
  /-- A command. -/
  | perform (options : Options) (command : Command)
deriving DecidableEq

namespace CommandLine

/-- The verbs. -/
inductive Verb where
  | run
  | decompose
  | entry
  | checkTables
deriving DecidableEq

/-- The verb with a given name. -/
def Verb.ofName? : String → Option Verb
  | "run" => some run
  | "decompose" => some decompose
  | "entry" => some entry
  | "check-tables" => some checkTables
  | _ => none

/-- The options. -/
inductive Flag where
  | tables
  | format
  | quiet
  | version
  | entries
  | out
  | summary
  | manifest
  | diagnostics
  | plain
deriving DecidableEq

namespace Flag

/-- All options. -/
def all : List Flag :=
  [tables, format, quiet, version, entries, out, summary, manifest, diagnostics, plain]

/-- The name after two dashes. -/
def long : Flag → String
  | tables => "tables"
  | format => "format"
  | quiet => "quiet"
  | version => "version"
  | entries => "entries"
  | out => "out"
  | summary => "summary"
  | manifest => "manifest"
  | diagnostics => "diagnostics"
  | plain => "no-dedupe"

/-- The letter after one dash. -/
def short? : Flag → Option Char
  | tables => some 't'
  | format => some 'o'
  | quiet => some 'q'
  | version => some 'V'
  | entries => some 'e'
  | _ => none

/-- Whether the option comes with a value. -/
def takesValue : Flag → Bool
  | quiet | version | diagnostics | plain => false
  | _ => true

/-- Whether the option may stand in front of the verb, or after a given verb. -/
def isKnownTo (verb : Option Verb) : Flag → Bool
  | tables | format | quiet => true
  | version => verb.isNone
  | _ => verb == some .run

/-- Whether a text is a value of the option. -/
def allows (f : Flag) (value : String) : Bool :=
  match f with
  | format => (OutputFormat.ofName? value).isSome
  | _ => !f.takesValue || value != ""

end Flag

/-- Why reading stops early. -/
inductive Stop where
  /-- The command line makes no sense. -/
  | misuse
  /-- The version is asked for. -/
  | version
deriving DecidableEq

/-- The options and words on one side of the verb. -/
structure Part where
  /-- The options with their values. -/
  flags : List (Flag × String)
  /-- The words. -/
  words : List String

namespace Part

/-- Nothing. -/
def empty : Part := ⟨[], []⟩

/-- Adds an option, which must be new and have a value that it allows. -/
def give (f : Flag) (value : String) (p : Part) : Except Stop Part :=
  if f = .version then .error .version
  else if (p.flags.lookup f).isSome || !f.allows value then .error .misuse
  else .ok { p with flags := p.flags ++ [(f, value)] }

/-- The value of an option. -/
def value? (p : Part) (f : Flag) : Option String := p.flags.lookup f

/-- Whether an option is given. -/
def has (p : Part) (f : Flag) : Bool := (p.value? f).isSome

end Part

/-- Reads letters after a dash.  An option whose value does not follow at once is the result. -/
def letters (verb : Option Verb) (p : Part) : List Char → Except Stop (Part × Option Flag)
  | [] => .ok (p, none)
  | c :: cs =>
    match Flag.all.find? fun f ↦ f.isKnownTo verb && f.short? == some c with
    | none => .error .misuse
    | some f =>
      if f.takesValue then
        if cs = [] then .ok (p, some f)
        else do
          let value := if cs.head? == some '=' then cs.drop 1 else cs
          return (← p.give f (String.ofList value), none)
      else do letters verb (← p.give f "") cs

/-- Reads a name after two dashes, with a value after an equals sign if there is one.  An option
whose value does not follow at once is the result. -/
def longName (verb : Option Verb) (p : Part) (cs : List Char) :
    Except Stop (Part × Option Flag) :=
  let name := String.ofList (cs.takeWhile (· != '='))
  match Flag.all.find? fun f ↦ f.isKnownTo verb && f.long == name, cs.dropWhile (· != '=') with
  | none, _ => .error .misuse
  | some f, [] => if f.takesValue then .ok (p, some f) else do return (← p.give f "", none)
  | some f, _ :: value =>
    if f.takesValue then do return (← p.give f (String.ofList value), none) else .error .misuse

/-- What an argument is. -/
inductive Argument where
  /-- The mark after which all arguments are words. -/
  | mark
  /-- A name after two dashes. -/
  | long (cs : List Char)
  /-- Letters after a dash. -/
  | short (cs : List Char)
  /-- A word. -/
  | word

/-- What an argument is.  A single dash is a word. -/
def Argument.of (s : String) : Argument :=
  match s.toList with
  | ['-', '-'] => .mark
  | '-' :: '-' :: cs => .long cs
  | '-' :: c :: cs => .short (c :: cs)
  | _ => .word

/-- Whether an argument is a word. -/
def isWord (s : String) : Bool :=
  match Argument.of s with
  | .word => true
  | _ => false

/-- Reads arguments up to the verb, or to the end when a verb has been read.  The verb and what
follows it are part of the result. -/
def readPart (verb : Option Verb) (p : Part) :
    Option Flag → List String → Except Stop (Part × List String)
  | some _, [] => .error .misuse
  | some f, a :: rest => do
    if isWord a then readPart verb (← p.give f a) none rest else .error .misuse
  | none, [] => .ok (p, [])
  | none, a :: rest =>
    match Argument.of a with
    | .mark =>
      if verb.isSome then .ok ({ p with words := p.words ++ rest }, []) else .error .misuse
    | .long cs => do
      let (p, awaited) ← longName verb p cs
      readPart verb p awaited rest
    | .short cs => do
      let (p, awaited) ← letters verb p cs
      readPart verb p awaited rest
    | .word =>
      if verb.isSome then readPart verb { p with words := p.words ++ [a] } none rest
      else .ok (p, a :: rest)

/-- The command that a verb and what follows it state. -/
def command? (p : Part) : Verb → Option Command
  | .run => do
    let entries ← p.value? .entries
    if p.words.isEmpty then
      return .run {
        entries := entries
        out := p.value? .out
        summary := p.value? .summary
        manifest := p.value? .manifest
        diagnostics := p.has .diagnostics
        shared := !p.has .plain }
    else none
  | .decompose => if p.words.isEmpty then none else some (.decompose p.words)
  | .entry =>
    match p.words with
    | [] => none
    | id :: tokens => some (.entry id tokens)
  | .checkTables => if p.words.isEmpty then some .checkTables else none

/-- The options that two parts state together; the later part counts first. -/
def options (earlier later : Part) : Options where
  tables := later.value? .tables <|> earlier.value? .tables
  format := ((later.value? .format <|> earlier.value? .format).bind OutputFormat.ofName?).getD .pretty
  quiet := later.has .quiet || earlier.has .quiet

/-- What the arguments ask for. -/
def read (arguments : List String) : Except Stop Request := do
  match ← readPart none .empty none arguments with
  | (_, []) => .error .misuse
  | (earlier, name :: rest) =>
    match Verb.ofName? name with
    | none => .error .misuse
    | some verb =>
      let (later, _) ← readPart (some verb) .empty none rest
      match command? later verb with
      | none => .error .misuse
      | some command => return .perform (options earlier later) command

/-- What the arguments ask for, `none` when they make no sense. -/
def request? (arguments : List String) : Option Request :=
  match read arguments with
  | .ok request => some request
  | .error .version => some .version
  | .error .misuse => none

end CommandLine

end ManuscriptReach
