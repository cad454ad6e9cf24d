import ManuscriptReach.Json.Tree

/-!
# Reading JSON

`Json.read?` takes a text that is one JSON value and nothing else but blanks.  It
checks the grammar and no more: numerals may be too large for any use, and
literals may hold halves of surrogate pairs.
-/

namespace ManuscriptReach.Json

/-- The four blanks of JSON. -/
def isSpace (c : Char) : Bool := c == ' ' || c == '\n' || c == '\t' || c == '\r'

/-- A text without the blanks at its front. -/
def skipSpaces (cs : List Char) : List Char := cs.dropWhile isSpace

mutual

/-- Reads a value after blanks.  Every sign of the text costs at most two units of fuel. -/
def readValue? : Nat → List Char → Option (Json × List Char)
  | 0, _ => none
  | fuel + 1, cs =>
    match skipSpaces cs with
    | 'n' :: 'u' :: 'l' :: 'l' :: rest => some (null, rest)
    | 't' :: 'r' :: 'u' :: 'e' :: rest => some (bool true, rest)
    | 'f' :: 'a' :: 'l' :: 's' :: 'e' :: rest => some (bool false, rest)
    | '"' :: rest => (Literal.scan? rest).map fun p ↦ (literal p.1, p.2)
    | '[' :: rest =>
      match skipSpaces rest with
      | ']' :: rest => some (array [], rest)
      | rest => (readItems? fuel rest).map fun p ↦ (array p.1, p.2)
    | '\x7b' :: rest =>
      match skipSpaces rest with
      | '\x7d' :: rest => some (object [], rest)
      | rest => (readMembers? fuel rest).map fun p ↦ (object p.1, p.2)
    | cs => (Numeral.read? cs).map fun p ↦ (numeral p.1, p.2)

/-- Reads one or more items and the sign that closes the array. -/
def readItems? : Nat → List Char → Option (List Json × List Char)
  | 0, _ => none
  | fuel + 1, cs =>
    match readValue? fuel cs with
    | none => none
    | some (x, rest) =>
      match skipSpaces rest with
      | ']' :: rest => some ([x], rest)
      | ',' :: rest => (readItems? fuel rest).map fun p ↦ (x :: p.1, p.2)
      | _ => none

/-- Reads one or more members and the sign that closes the object. -/
def readMembers? : Nat → List Char → Option (List (List Char × Json) × List Char)
  | 0, _ => none
  | fuel + 1, cs =>
    match skipSpaces cs with
    | '"' :: rest =>
      match Literal.scan? rest with
      | none => none
      | some (name, rest) =>
        match skipSpaces rest with
        | ':' :: rest =>
          match readValue? fuel rest with
          | none => none
          | some (value, rest) =>
            match skipSpaces rest with
            | '\x7d' :: rest => some ([(name, value)], rest)
            | ',' :: rest => (readMembers? fuel rest).map fun p ↦ ((name, value) :: p.1, p.2)
            | _ => none
        | _ => none
    | _ => none

end

/-- Reads a text that is one JSON value. -/
def read? (s : String) : Option Json :=
  let cs := s.toList
  match readValue? (2 * cs.length + 2) cs with
  | some (j, rest) => if skipSpaces rest = [] then some j else none
  | none => none

mutual

/-- Whether the tree has no array or object nested deeper than `limit` levels, no literal without
a text, and no numeral too large for a double. -/
def isUsable (limit : Nat) : Json → Bool
  | null => true
  | bool _ => true
  | numeral n => n.float?.isSome
  | literal body => (Literal.decode? body).isSome
  | array xs =>
    match limit with
    | 0 => false
    | limit + 1 => areUsable limit xs
  | object ms =>
    match limit with
    | 0 => false
    | limit + 1 => membersUsable limit ms

/-- The same of every item. -/
def areUsable (limit : Nat) : List Json → Bool
  | [] => true
  | x :: xs => isUsable limit x && areUsable limit xs

/-- The same of every member, whose name must stand for a text as well. -/
def membersUsable (limit : Nat) : List (List Char × Json) → Bool
  | [] => true
  | (name, value) :: ms =>
    (Literal.decode? name).isSome && isUsable limit value && membersUsable limit ms

end

/-- How deep arrays and objects may be nested where their values are used. -/
def depthLimit : Nat := 127

end ManuscriptReach.Json
