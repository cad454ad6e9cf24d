/-!
# Places in a YAML text

A `Cursor` is what is left of a text, with the line and the column where it begins.
Columns matter: they say which block a line belongs to.  A column is a character wide,
but how far two places are apart is measured in bytes.
-/

namespace ManuscriptReach.Yaml

/-- Whether a character ends a line. -/
def isBreak (c : Char) : Bool :=
  c == '\n' || c == '\r' || c == '\x85' || c == '\u2028' || c == '\u2029'

/-- Whether a character is a blank within a line. -/
def isGap (c : Char) : Bool := c == ' ' || c == '\t'

/-- Whether a text is at its end, at a blank or at the end of a line. -/
def atGap : List Char → Bool
  | [] => true
  | c :: _ => isGap c || isBreak c

/-- Whether a character may stand in a text at all. -/
def isAllowed (c : Char) : Bool :=
  c == '\t' || c == '\n' || c == '\r' || (' ' ≤ c && c ≤ '~') || c == '\x85' ||
    ('\xa0' ≤ c && c != '\ufffe' && c != '\uffff')

/-- The mark that may stand in front of a line to show the encoding. -/
def encodingMark : Char := '\ufeff'

/-- What is left of a text, and where that begins. -/
structure Cursor where
  rest : List Char
  /-- The number of line ends before. -/
  line : Nat
  /-- The number of characters before in the line. -/
  column : Nat
  /-- The number of bytes before, in UTF-8. -/
  offset : Nat

namespace Cursor

/-- The beginning of a text. -/
def start (s : String) : Cursor := ⟨s.toList, 0, 0, 0⟩

/-- The place `n` characters further in the line. -/
def skip (c : Cursor) (n : Nat) : Cursor :=
  ⟨c.rest.drop n, c.line, c.column + n,
    c.offset + (String.ofList (c.rest.take n)).utf8ByteSize⟩

/-- Whether three equal signs, and nothing else, stand at the front of a line. -/
def atRule (c : Cursor) (sign : Char) : Bool :=
  c.column == 0 && c.rest.take 3 == List.replicate 3 sign && atGap (c.rest.drop 3)

/-- Whether a mark between documents stands at the front of a line. -/
def atDocumentMark (c : Cursor) : Bool := c.atRule '-' || c.atRule '.'

/-- The place where a text goes on with less left of the line. -/
def skipTo (c : Cursor) (rest : List Char) : Cursor := c.skip (c.rest.length - rest.length)

/-- The place after the end of a line. -/
def newLine? (c : Cursor) : Option Cursor :=
  match c.rest with
  | [] => none
  | '\r' :: '\n' :: cs => some ⟨cs, c.line + 1, 0, c.offset + 2⟩
  | x :: cs => if isBreak x then some ⟨cs, c.line + 1, 0, c.offset + x.utf8Size⟩ else none

/-- The place after a line of which at most blanks and a comment are left. -/
def endLine? (c : Cursor) : Option Cursor :=
  let c := c.skipTo (c.rest.dropWhile isGap)
  let c := if c.rest.head? == some '#' then c.skipTo (c.rest.dropWhile (!isBreak ·)) else c
  if c.rest = [] then some c else c.newLine?

end Cursor

/-- Skips blanks, comments and line ends.  In a block a line end allows a key to follow, and where
a key may follow no tab is skipped.  At the front of a line a mark of the encoding is skipped too,
but counts as a column. -/
def skipToToken (inFlow : Bool) (inComment keyAllowed : Bool) (line column offset : Nat) :
    List Char → Bool × Cursor
  | [] => (keyAllowed, ⟨[], line, column, offset⟩)
  | '\r' :: '\n' :: cs =>
    skipToToken inFlow false (keyAllowed || !inFlow) (line + 1) 0 (offset + 2) cs
  | c :: cs =>
    let after := offset + c.utf8Size
    if isBreak c then skipToToken inFlow false (keyAllowed || !inFlow) (line + 1) 0 after cs
    else if inComment || c == ' ' || (c == '\t' && (inFlow || !keyAllowed)) ||
        (c == encodingMark && column == 0) then
      skipToToken inFlow inComment keyAllowed line (column + 1) after cs
    else if c == '#' then skipToToken inFlow true keyAllowed line (column + 1) after cs
    else (keyAllowed, ⟨c :: cs, line, column, offset⟩)

end ManuscriptReach.Yaml
