import ManuscriptReach.Yaml.Scalar

/-!
# YAML block scalars

After a bar or an angle the indented lines that follow are a scalar as they stand.  After an
angle they are folded: the end of a line counts as a space unless the line, or the next
one, begins with a blank.  Signs after the bar or angle state how far the lines are indented
and what becomes of the line ends after the last of them.
-/

namespace ManuscriptReach.Yaml

/-- What becomes of the line ends after the last line. -/
inductive Ending where
  /-- None stays. -/
  | strip
  /-- That of the last line stays. -/
  | clip
  /-- All stay. -/
  | keep

/-- The ending that a sign states. -/
def ending? : Char → Option Ending
  | '-' => some .strip
  | '+' => some .keep
  | _ => none

/-- The indentation that a digit states. -/
def increment? (c : Char) : Option Nat :=
  if '1' ≤ c ∧ c ≤ '9' then some (c.toNat - '0'.toNat) else none

/-- What the signs after a bar or angle state, which stand in either order, and how many of them
there are. -/
def blockHeader (cs : List Char) : Ending × Option Nat × Nat :=
  match cs.head?.bind ending?, cs.head?.bind increment? with
  | some e, _ =>
    match cs[1]?.bind increment? with
    | some n => (e, some n, 2)
    | none => (e, none, 1)
  | none, some n =>
    match cs[1]?.bind ending? with
    | some e => (e, some n, 2)
    | none => (.clip, some n, 1)
  | none, none => (.clip, none, 0)

/-- The lines of a block scalar so far. -/
structure BlockLines where
  text : List Char
  /-- The end of the last line. -/
  lineEnd : List Char
  /-- The ends of the empty lines after it. -/
  breaks : List Char
  /-- Whether the last line begins with a blank. -/
  startsBlank : Bool

namespace BlockLines

/-- What stands between the last line and a next one. -/
def joint (folded nextBlank : Bool) (b : BlockLines) : List Char :=
  if folded && b.lineEnd == ['\n'] && !b.startsBlank && !nextBlank then
    if b.breaks = [] then [' '] else b.breaks
  else b.lineEnd ++ b.breaks

/-- The scalar that the lines are. -/
def close (e : Ending) (b : BlockLines) : List Char :=
  match e with
  | .strip => b.text
  | .clip => b.text ++ b.lineEnd
  | .keep => b.text ++ b.lineEnd ++ b.breaks

end BlockLines

/-- The end of a line as it is kept, where a line ends. -/
def Cursor.lineEnd (c : Cursor) : List Char :=
  if c.rest.head?.any isBreak then (c.rest.head?.map keptBreak).toList else []

/-- Skips empty lines and the indentation of the line after them.  Returns the ends of the empty
lines and the widest indentation.  Where lines are known to be indented by `indent` columns, what
comes after those belongs to a line. -/
def skipEmptyLines? (indent : Option Nat) : Nat → (breaks : List Char) → (widest : Nat) → Cursor →
    Option (List Char × Nat × Cursor)
  | 0, _, _, _ => none
  | fuel + 1, breaks, widest, c =>
    let spaces := (c.rest.takeWhile (· == ' ')).length
    let c := c.skip (indent.elim spaces fun n ↦ min spaces (n - c.column))
    let widest := max widest c.column
    if indent.all (c.column < ·) && c.rest.head? == some '\t' then none
    else
      match c.newLine? with
      | some next => skipEmptyLines? indent fuel (breaks ++ c.lineEnd) widest next
      | none => some (breaks, widest, c)

/-- Reads the lines that are indented by `indent` columns. -/
def scanLines? (folded : Bool) (indent : Nat) : Nat → BlockLines → Cursor →
    Option (BlockLines × Cursor)
  | 0, _, _ => none
  | fuel + 1, b, c =>
    if c.column ≠ indent || c.rest = [] then some (b, c)
    else do
      let line := c.rest.takeWhile (!isBreak ·)
      let startsBlank := line.head?.any isGap
      let after := c.skip line.length
      let next := after.newLine?.getD after
      let (breaks, _, next) ← skipEmptyLines? (some indent) (next.rest.length + 1) [] 0 next
      let text := b.text ++ b.joint folded startsBlank ++ line
      scanLines? folded indent fuel ⟨text, after.lineEnd, breaks, startsBlank⟩ next

/-- Reads a block scalar after its bar or angle.  What belongs to the block around it begins at the
column `limit` or later. -/
def scanBlock? (folded : Bool) (limit : Nat) (c : Cursor) : Option (List Char × Cursor) := do
  let (ending, increment, n) := blockHeader c.rest
  let c ← (c.skip n).endLine?
  let stated := increment.map (limit - 1 + ·)
  let (breaks, widest, c) ← skipEmptyLines? stated (c.rest.length + 1) [] 0 c
  let indent := stated.getD (max widest (max limit 1))
  let (b, c) ← scanLines? folded indent (c.rest.length + 1) ⟨[], [], breaks, false⟩ c
  return (b.close ending, c)

end ManuscriptReach.Yaml
