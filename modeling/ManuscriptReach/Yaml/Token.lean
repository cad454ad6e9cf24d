import ManuscriptReach.Yaml.BlockScalar
import ManuscriptReach.Yaml.Property

/-!
# YAML tokens

A text is cut into tokens.  The tokens also state where blocks begin and end, which
the text shows by indentation only.  That something was a key is known only when the
colon after it is found, and the colon must follow on the same line; until then the
place of a possible key is remembered.

An anchor gets the number of the names before it, and an alias that of the last anchor
with its name.  A name that is given again thus gets a number that the next new name gets
too.  A tag is given in full, with what its handle stands for.
-/

namespace ManuscriptReach.Yaml

/-- How a scalar is written. -/
inductive Style where
  /-- Without anything around it. -/
  | plain
  /-- Between quotes. -/
  | quoted
  /-- After a bar. -/
  | literal
  /-- After an angle. -/
  | folded
deriving DecidableEq

/-- A sign, a property, a scalar, or the beginning or end of a block. -/
inductive Token where
  /-- A directive, with the handle that it is on. -/
  | directive (handle : Option (List Char))
  /-- The mark in front of a document. -/
  | documentStart
  /-- The mark after a document. -/
  | documentEnd
  /-- The beginning of a list in a block. -/
  | blockList
  /-- The beginning of a mapping in a block. -/
  | blockMapping
  /-- The end of a list or mapping in a block. -/
  | blockEnd
  /-- The sign in front of an item in a block. -/
  | item
  /-- What follows is a key. -/
  | key
  /-- What follows is a value. -/
  | value
  /-- The opening sign of a list. -/
  | openList
  /-- The closing sign of a list. -/
  | closeList
  /-- The opening sign of a mapping. -/
  | openMapping
  /-- The closing sign of a mapping. -/
  | closeMapping
  /-- The sign between two items or members. -/
  | comma
  /-- An anchor. -/
  | anchor (id : Nat)
  /-- An alias for the node with an anchor. -/
  | reference (id : Nat)
  /-- A tag. -/
  | tag (tag : Tag)
  /-- A scalar. -/
  | scalar (style : Style) (text : String)
deriving DecidableEq

/-- A place where a key may have begun. -/
structure PossibleKey where
  line : Nat
  column : Nat
  offset : Nat
  /-- The number of tokens before. -/
  position : Nat
  /-- Whether nothing but a key makes sense there. -/
  required : Bool

/-- The state of the cut. -/
structure Lexer where
  cursor : Cursor
  /-- The column of every open block, innermost first. -/
  columns : List Nat
  /-- Whether a key or an item may begin. -/
  keyAllowed : Bool
  /-- The possible key outside all flow collections. -/
  blockKey : Option PossibleKey
  /-- The possible key in every open flow collection, innermost first. -/
  flowKeys : List (Option PossibleKey)
  /-- The names of anchors, and the number of the last anchor with each. -/
  anchors : List (List Char × Nat)
  /-- What handles stand for. -/
  handles : List (List Char × Tag)
  /-- The tokens so far, last one first. -/
  tokens : List Token

namespace Lexer

/-- How many bytes a key may take. -/
def keyLimit : Nat := 1024

/-- The state in front of a text. -/
def start (s : String) : Lexer := ⟨.start s, [], true, none, [], [], usualHandles, []⟩

/-- Whether a flow collection is open. -/
def inFlow (s : Lexer) : Bool := !s.flowKeys.isEmpty

/-- The column where what belongs to the innermost block begins at the earliest. -/
def limit (s : Lexer) : Nat := s.columns.head?.elim 0 (· + 1)

/-- Adds a token. -/
def emit (t : Token) (s : Lexer) : Lexer := { s with tokens := t :: s.tokens }

/-- Adds a token and skips the `n` characters that stand for it. -/
def emitSkip (t : Token) (n : Nat) (s : Lexer) : Lexer :=
  { s with tokens := t :: s.tokens, cursor := s.cursor.skip n }

/-- Adds a token after the first `position` ones. -/
def emitAt (t : Token) (position : Nat) (s : Lexer) : Lexer :=
  let newer := s.tokens.length - position
  { s with tokens := s.tokens.take newer ++ t :: s.tokens.drop newer }

/-- Sets whether a key may begin. -/
def allowKey (allowed : Bool) (s : Lexer) : Lexer := { s with keyAllowed := allowed }

/-- The possible key of the innermost flow collection, or of the block. -/
def currentKey (s : Lexer) : Option PossibleKey :=
  match s.flowKeys with
  | [] => s.blockKey
  | k :: _ => k

/-- Replaces that possible key. -/
def setKey (k : Option PossibleKey) (s : Lexer) : Lexer :=
  match s.flowKeys with
  | [] => { s with blockKey := k }
  | _ :: ks => { s with flowKeys := k :: ks }

/-- Gives up that possible key, which is a mistake when nothing but a key made sense. -/
def dropKey? (s : Lexer) : Option Lexer :=
  if s.currentKey.any (·.required) then none else some (s.setKey none)

/-- Remembers the place as that of a possible key. -/
def saveKey? (s : Lexer) : Option Lexer :=
  if s.keyAllowed then do
    let required := !s.inFlow && s.columns.head? == some s.cursor.column
    let c := s.cursor
    return (← s.dropKey?).setKey (some ⟨c.line, c.column, c.offset, s.tokens.length, required⟩)
  else some s

/-- Whether the colon of a possible key can no longer follow. -/
def isLate (s : Lexer) (k : PossibleKey) : Bool :=
  k.line < s.cursor.line || k.offset + keyLimit < s.cursor.offset

/-- Gives up every possible key whose colon can no longer follow. -/
def dropLateKeys? (s : Lexer) : Option Lexer :=
  if (s.blockKey :: s.flowKeys).any fun k ↦ k.any fun k ↦ s.isLate k && k.required then none
  else
    let keep (k : Option PossibleKey) : Option PossibleKey := k.filter fun k ↦ !s.isLate k
    some { s with blockKey := keep s.blockKey, flowKeys := s.flowKeys.map keep }

/-- Closes every open block that begins after a column. -/
def closeAfter (column : Nat) (s : Lexer) : Lexer :=
  if s.inFlow then s
  else
    let closed := s.columns.takeWhile (column < ·)
    { s with
      columns := s.columns.drop closed.length
      tokens := closed.map (fun _ ↦ Token.blockEnd) ++ s.tokens }

/-- Closes every open block. -/
def closeAll (s : Lexer) : Lexer :=
  if s.inFlow then s
  else { s with columns := [], tokens := s.columns.map (fun _ ↦ Token.blockEnd) ++ s.tokens }

/-- Opens a block at a column unless one that begins there is open; its token stands after the
first `position` ones. -/
def openAt (column position : Nat) (t : Token) (s : Lexer) : Lexer :=
  if s.inFlow || !s.columns.head?.all (· < column) then s
  else { s.emitAt t position with columns := column :: s.columns }

/-- Opens a block at the present place, where a key or an item must be allowed. -/
def openHere? (t : Token) (s : Lexer) : Option Lexer :=
  if s.inFlow then some s
  else if s.keyAllowed then some (s.openAt s.cursor.column s.tokens.length t)
  else none

/-- A directive, which takes its line. -/
def directive? (s : Lexer) : Option Lexer := do
  let s ← s.closeAll.dropKey?
  let (d, rest) ← Yaml.directive? (s.cursor.rest.drop 1)
  let s := { s.allowKey false with cursor := ← (s.cursor.skipTo rest).endLine? }
  match d with
  | .version => return s.emit (.directive none)
  | .handle name tag =>
    return { s.emit (.directive (some name)) with handles := (name, tag) :: s.handles }

/-- A mark between documents. -/
def documentMark? (t : Token) (s : Lexer) : Option Lexer := do
  return ((← s.closeAll.dropKey?).allowKey false).emitSkip t 3

/-- The opening sign of a flow collection. -/
def openFlow? (t : Token) (s : Lexer) : Option Lexer := do
  let s ← s.saveKey?
  return ({ s with flowKeys := none :: s.flowKeys }.allowKey true).emitSkip t 1

/-- The closing sign of a flow collection. -/
def closeFlow? (t : Token) (s : Lexer) : Option Lexer := do
  let s ← s.dropKey?
  return ({ s with flowKeys := s.flowKeys.drop 1 }.allowKey false).emitSkip t 1

/-- The sign between two items or members. -/
def comma? (s : Lexer) : Option Lexer := do
  return ((← s.dropKey?).allowKey true).emitSkip .comma 1

/-- The sign in front of an item in a block. -/
def item? (s : Lexer) : Option Lexer := do
  return ((← (← s.openHere? .blockList).dropKey?).allowKey true).emitSkip .item 1

/-- The sign in front of a key. -/
def key? (s : Lexer) : Option Lexer := do
  return ((← (← s.openHere? .blockMapping).dropKey?).allowKey !s.inFlow).emitSkip .key 1

/-- The colon in front of a value.  What stands at the place of the possible key was a key. -/
def value? (s : Lexer) : Option Lexer := do
  match s.currentKey with
  | some k =>
    let s := (s.emitAt .key k.position).openAt k.column k.position .blockMapping
    return ((s.setKey none).allowKey false).emitSkip .value 1
  | none => return ((← s.openHere? .blockMapping).allowKey !s.inFlow).emitSkip .value 1

/-- An anchor. -/
def anchor? (s : Lexer) : Option Lexer := do
  let s ← s.saveKey?
  let name ← anchorName? (s.cursor.rest.drop 1)
  let id := s.anchors.length
  let others := s.anchors.filter (·.1 ≠ name)
  return { (s.emitSkip (.anchor id) (name.length + 1)).allowKey false with
    anchors := (name, id) :: others }

/-- An alias of an anchor before it. -/
def reference? (s : Lexer) : Option Lexer := do
  let s ← s.saveKey?
  let name ← anchorName? (s.cursor.rest.drop 1)
  let id ← s.anchors.lookup name
  return (s.emitSkip (.reference id) (name.length + 1)).allowKey false

/-- A tag. -/
def tag? (s : Lexer) : Option Lexer := do
  let s ← s.saveKey?
  let (tag, rest) ← Yaml.tag? s.handles (s.cursor.rest.drop 1)
  if !(atGap rest || (s.inFlow && rest.head? == some ',')) then none
  return { (s.emit (.tag tag)).allowKey false with cursor := s.cursor.skipTo rest }

/-- A scalar in the lines after a bar or an angle. -/
def block? (folded : Bool) (s : Lexer) : Option Lexer := do
  let s ← s.dropKey?
  let (text, after) ← scanBlock? folded s.limit (s.cursor.skip 1)
  let style := if folded then Style.folded else .literal
  return { (s.emit (.scalar style (String.ofList text))).allowKey true with cursor := after }

/-- A scalar between quotes. -/
def quoted? (quote : Char) (s : Lexer) : Option Lexer := do
  let s ← s.saveKey?
  let r ← scanQuoted? quote (s.cursor.rest.length + 1) [] (s.cursor.skip 1)
  return { (s.emit (.scalar .quoted (String.ofList r.text))).allowKey false with cursor := r.after }

/-- A plain scalar. -/
def plain? (s : Lexer) : Option Lexer := do
  let s ← s.saveKey?
  let r ← scanPlain? s.inFlow s.limit (s.cursor.rest.length + 1) [] .empty s.cursor
  let text := String.ofList r.text
  return { (s.emit (.scalar .plain text)).allowKey r.broken with cursor := r.after }

/-- The signs with which no plain scalar begins. -/
def isIndicator (c : Char) : Bool :=
  isFlowSign c || c ∈ ['-', '?', ':', '#', '&', '*', '!', '|', '>', '\'', '"', '%', '@', '\x60']

/-- Whether a plain scalar begins; a few signs may begin one when no blank follows. -/
def beginsPlain (inFlow : Bool) (c : Char) (next : List Char) : Bool :=
  !(isIndicator c || isGap c) || (c == '-' && !next.head?.any isGap) ||
    (!inFlow && (c == '?' || c == ':') && !atGap next)

/-- Reads the token that begins with a character. -/
def token? (c : Char) (next : List Char) (s : Lexer) : Option Lexer :=
  if c == '%' && s.cursor.column == 0 then s.directive?
  else if s.cursor.atRule '-' then s.documentMark? .documentStart
  else if s.cursor.atRule '.' then s.documentMark? .documentEnd
  else if c == '[' then s.openFlow? .openList
  else if c == '\x7b' then s.openFlow? .openMapping
  else if c == ']' then s.closeFlow? .closeList
  else if c == '\x7d' then s.closeFlow? .closeMapping
  else if c == ',' then s.comma?
  else if c == '-' && atGap next then s.item?
  else if c == '?' && (s.inFlow || atGap next) then s.key?
  else if c == ':' && (s.inFlow || atGap next) then s.value?
  else if c == '*' then s.reference?
  else if c == '&' then s.anchor?
  else if c == '!' then s.tag?
  else if (c == '|' || c == '>') && !s.inFlow then s.block? (c == '>')
  else if c == '\'' || c == '"' then s.quoted? c
  else if beginsPlain s.inFlow c next then s.plain?
  else none

/-- Reads all tokens. -/
def run? : Nat → Lexer → Option (List Token)
  | 0, _ => none
  | fuel + 1, s => do
    let c := s.cursor
    let (allowed, cursor) := skipToToken s.inFlow false s.keyAllowed c.line c.column c.offset c.rest
    let s ← { s with cursor := cursor, keyAllowed := allowed }.dropLateKeys?
    match s.cursor.rest with
    | [] => return (← s.closeAll.dropKey?).tokens.reverse
    | c :: next => run? fuel (← (s.closeAfter s.cursor.column).token? c next)

end Lexer

/-- The tokens of a text. -/
def tokens? (s : String) : Option (List Token) :=
  if s.toList.all isAllowed then Lexer.run? (s.length + 1) (.start s) else none

end ManuscriptReach.Yaml
