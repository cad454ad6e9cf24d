import ManuscriptReach.Yaml.Cursor
import ManuscriptReach.Text.Hex

/-!
# YAML scalars

A scalar without lines of its own is written plainly or between quotes.  Where it runs on a
single line end counts as a space, and of more line ends in a row all but the first
stay.  In double quotes a backslash begins an escape; in single quotes a quote is
written twice.
-/

namespace ManuscriptReach.Yaml

/-- Blanks and line ends between two words of a scalar. -/
structure Gap where
  /-- The blanks in front of the first line end. -/
  blanks : List Char
  /-- The line ends. -/
  breaks : List Char
  /-- Whether the gap began with an escaped line end, which leaves nothing. -/
  escaped : Bool

namespace Gap

/-- The gap without anything. -/
def empty : Gap := ⟨[], [], false⟩

/-- Whether the gap holds a line end. -/
def isBroken (g : Gap) : Bool := g.escaped || !g.breaks.isEmpty

/-- What a gap contributes to a scalar. -/
def text (g : Gap) : List Char :=
  if g.escaped then g.breaks
  else
    match g.breaks with
    | [] => g.blanks
    | ['\n'] => [' ']
    | '\n' :: bs => bs
    | bs => bs

end Gap

/-- How a line end is kept. -/
def keptBreak (c : Char) : Char := if c == '\u2028' || c == '\u2029' then c else '\n'

/-- Takes the blanks and line ends at the front of a text into a gap.  On a new line no tab may
stand in front of the column `limit`. -/
def scanGap? (limit : Nat) (g : Gap) (line column offset : Nat) :
    List Char → Option (Gap × Cursor)
  | [] => some (g, ⟨[], line, column, offset⟩)
  | '\r' :: '\n' :: cs =>
    scanGap? limit { g with breaks := g.breaks ++ ['\n'] } (line + 1) 0 (offset + 2) cs
  | c :: cs =>
    if isGap c then
      if g.isBroken && c == '\t' && column < limit then none
      else
        scanGap? limit (if g.isBroken then g else { g with blanks := g.blanks ++ [c] })
          line (column + 1) (offset + c.utf8Size) cs
    else if isBreak c then
      scanGap? limit { g with breaks := g.breaks ++ [keptBreak c] } (line + 1) 0
        (offset + c.utf8Size) cs
    else some (g, ⟨c :: cs, line, column, offset⟩)

/-- Takes the blanks and line ends at a place into a gap. -/
def Cursor.gap? (c : Cursor) (limit : Nat) (g : Gap) : Option (Gap × Cursor) :=
  scanGap? limit g c.line c.column c.offset c.rest

/-- The signs that structure a flow collection. -/
def isFlowSign (c : Char) : Bool := c == ',' || c == '[' || c == ']' || c == '\x7b' || c == '\x7d'

/-- Whether the sign after a colon makes no sense there. -/
def isMisplaced : List Char → Bool
  | c :: _ => isFlowSign c || c == '?'
  | [] => false

/-- The word of a plain scalar at the front of a text.  It ends at a blank, at a colon before a
blank, and in a flow collection at one of its signs. -/
def plainWord? (inFlow : Bool) : List Char → Option (List Char)
  | [] => some []
  | c :: cs =>
    if isGap c || isBreak c then some []
    else if inFlow && c == ':' && isMisplaced cs then none
    else if (c == ':' && atGap cs) || (inFlow && isFlowSign c) then some []
    else (plainWord? inFlow cs).map (c :: ·)

/-- A scalar that has been read. -/
structure Scanned where
  text : List Char
  /-- The place after it. -/
  after : Cursor
  /-- Whether a line ended on the way from the last word to that place. -/
  broken : Bool

/-- Reads the words of a plain scalar after the text `done` and the gap `g`.  In a block its lines
begin at the column `limit` or later. -/
def scanPlain? (inFlow : Bool) (limit : Nat) : Nat → List Char → Gap → Cursor → Option Scanned
  | 0, _, _, _ => none
  | fuel + 1, done, g, c =>
    if c.atDocumentMark || c.rest.head? == some '#' then some ⟨done, c, g.isBroken⟩
    else
      match plainWord? inFlow c.rest with
      | none => none
      | some word =>
        let done := if word = [] then done else done ++ g.text ++ word
        let g := if word = [] then g else .empty
        let c := c.skip word.length
        if c.rest = [] || !atGap c.rest then some ⟨done, c, g.isBroken⟩
        else
          match c.gap? limit .empty with
          | none => none
          | some (g, c) =>
            if !inFlow && c.column < limit then some ⟨done, c, g.isBroken⟩
            else scanPlain? inFlow limit fuel done g c

/-- The character with the code that the first `n` characters give in hexadecimal digits. -/
def codeEscape? (n : Nat) (cs : List Char) : Option Char := do
  if cs.length < n then none
  let code ← (cs.take n).foldlM (fun v c ↦ do return 16 * v + (← hexValue? c)) 0
  if h : code.isValidChar then return Char.ofNatAux code h else none

/-- The character for which a backslash and a letter stand. -/
def letterEscape? : Char → Option Char
  | '0' => some '\x00'
  | 'a' => some '\x07'
  | 'b' => some '\x08'
  | 't' => some '\t'
  | '\t' => some '\t'
  | 'n' => some '\n'
  | 'v' => some '\x0b'
  | 'f' => some '\x0c'
  | 'r' => some '\r'
  | 'e' => some '\x1b'
  | ' ' => some ' '
  | '"' => some '"'
  | '/' => some '/'
  | '\\' => some '\\'
  | 'N' => some '\x85'
  | '_' => some '\xa0'
  | 'L' => some '\u2028'
  | 'P' => some '\u2029'
  | _ => none

/-- The character for which a backslash and what follows it stand, and how much of that counts. -/
def escape? : List Char → Option (Char × Nat)
  | [] => none
  | 'x' :: cs => (codeEscape? 2 cs).map (·, 3)
  | 'u' :: cs => (codeEscape? 4 cs).map (·, 5)
  | 'U' :: cs => (codeEscape? 8 cs).map (·, 9)
  | c :: _ => (letterEscape? c).map (·, 1)

/-- The characters of a quoted scalar up to a blank, an escaped line end or the closing quote, and
how much of the text they take. -/
def quotedWord? (quote : Char) : Nat → List Char → Option (List Char × Nat)
  | 0, _ => none
  | _ + 1, [] => some ([], 0)
  | fuel + 1, c :: cs =>
    if isGap c || isBreak c then some ([], 0)
    else if c == '\'' && quote == '\'' && cs.head? == some '\'' then
      (quotedWord? quote fuel (cs.drop 1)).map fun p ↦ ('\'' :: p.1, p.2 + 2)
    else if c == quote then some ([], 0)
    else if c == '\\' && quote == '"' then
      if cs.head?.any isBreak then some ([], 0)
      else
        match escape? cs with
        | none => none
        | some (e, n) =>
          (quotedWord? quote fuel (cs.drop n)).map fun p ↦ (e :: p.1, p.2 + n + 1)
    else (quotedWord? quote fuel cs).map fun p ↦ (c :: p.1, p.2 + 1)

/-- Reads the words of a quoted scalar, and its closing quote, after the text `done`. -/
def scanQuoted? (quote : Char) : Nat → List Char → Cursor → Option Scanned
  | 0, _, _ => none
  | fuel + 1, done, c =>
    if c.atDocumentMark then none
    else
      match quotedWord? quote (c.rest.length + 1) c.rest with
      | none => none
      | some (word, n) =>
        let c := c.skip n
        match c.rest with
        | [] => none
        | x :: _ =>
          if x == quote then some ⟨done ++ word, c.skip 1, false⟩
          else
            let escaped := x == '\\'
            match (if escaped then c.skip 1 else c).gap? 0 ⟨[], [], false⟩ with
            | none => none
            | some (g, c) =>
              let g : Gap := if escaped then ⟨[], g.breaks.drop 1, true⟩ else g
              scanQuoted? quote fuel (done ++ word ++ g.text) c

end ManuscriptReach.Yaml
