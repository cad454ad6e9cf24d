import ManuscriptReach.Record
import ManuscriptReach.Json.Reader

/-!
# JSON values as parts of documents
-/

namespace ManuscriptReach.Json

/-- The alternative that a value names: by a literal, or as the only member of an object, with
null for its value. -/
def word? : Json → Option String
  | literal body => Literal.decode? body
  | object [(name, null)] => Literal.decode? name
  | _ => none

instance : Node Json where
  isAbsent
    | null => true
    | _ => false
  text?
    | literal body => Literal.decode? body
    | _ => none
  word? := word?
  natural?
    | numeral n => n.natural?
    | _ => none
  float?
    | numeral n => n.float?
    | _ => none
  bool?
    | bool b => some b
    | _ => none
  items?
    | array xs => some xs
    | _ => none
  unnamed?
    | array xs => some xs
    | _ => none
  members?
    | object ms => some (ms.map fun m ↦ (Literal.decode? m.1, m.2))
    | _ => none
  numbered?
    | object ms => ms.mapM fun m ↦ (Numeral.readNatural? m.1).map (·, m.2)
    | _ => none

/-- Reads a record from a text that is one JSON value. -/
def readAs? {α : Type} (read : Json → Option α) (s : String) : Option α := (read? s).bind read

mutual

/-- Drops members of objects whose name stands for the same text as that of a later one. -/
def lastMembers : Json → Json
  | null => null
  | bool b => bool b
  | numeral n => numeral n
  | literal body => literal body
  | array xs => array (lastMembersOfItems xs)
  | object ms => object (lastMembersOfMembers ms)

/-- The same in every item. -/
def lastMembersOfItems : List Json → List Json
  | [] => []
  | x :: xs => lastMembers x :: lastMembersOfItems xs

/-- The same in every member, and among them. -/
def lastMembersOfMembers : List (List Char × Json) → List (List Char × Json)
  | [] => []
  | (name, value) :: ms =>
    if ms.any fun m ↦ Literal.decode? m.1 == Literal.decode? name then lastMembersOfMembers ms
    else (name, lastMembers value) :: lastMembersOfMembers ms

end

/-- Reads a text that is one JSON value in which every part is usable; of members with one name
the last counts. -/
def readStrict? (s : String) : Option Json :=
  (read? s).bind fun j ↦ if isUsable depthLimit j then some (lastMembers j) else none

end ManuscriptReach.Json
