import ManuscriptReach.Json.Tree

/-!
# Writing JSON

Two layouts are in use: compact text without any blank, and indented text with one
item a line.  They differ only in the blanks between the signs, which a `Layout`
supplies.
-/

namespace ManuscriptReach

/-- The blanks between the signs of a JSON text. -/
structure Layout where
  /-- What stands before an item, or before the closing sign, at a depth. -/
  gap : Nat → List Char
  /-- What separates a member's name from its value. -/
  colon : List Char

namespace Layout

/-- No blank at all. -/
def compact : Layout := ⟨fun _ ↦ [], [':']⟩

/-- One item a line, indented by two blanks a level. -/
def indented : Layout := ⟨fun depth ↦ '\n' :: List.replicate (2 * depth) ' ', [':', ' ']⟩

end Layout

namespace Json

mutual

/-- The text of a tree that stands at a depth. -/
def write (l : Layout) (depth : Nat) : Json → List Char
  | null => ['n', 'u', 'l', 'l']
  | bool true => ['t', 'r', 'u', 'e']
  | bool false => ['f', 'a', 'l', 's', 'e']
  | numeral n => n.text
  | literal body => '"' :: (body ++ ['"'])
  | array [] => ['[', ']']
  | array (x :: xs) =>
    '[' :: (l.gap (depth + 1) ++ write l (depth + 1) x ++ writeItems l (depth + 1) xs ++
      l.gap depth ++ [']'])
  | object [] => ['\x7b', '\x7d']
  | object (m :: ms) =>
    '\x7b' :: (l.gap (depth + 1) ++ writeMember l (depth + 1) m ++ writeMembers l (depth + 1) ms ++
      l.gap depth ++ ['\x7d'])

/-- The text of the items after the first, each with a comma in front. -/
def writeItems (l : Layout) (depth : Nat) : List Json → List Char
  | [] => []
  | x :: xs => ',' :: (l.gap depth ++ write l depth x ++ writeItems l depth xs)

/-- The text of a member. -/
def writeMember (l : Layout) (depth : Nat) : List Char × Json → List Char
  | (name, value) => '"' :: (name ++ '"' :: (l.colon ++ write l depth value))

/-- The text of the members after the first, each with a comma in front. -/
def writeMembers (l : Layout) (depth : Nat) : List (List Char × Json) → List Char
  | [] => []
  | m :: ms => ',' :: (l.gap depth ++ writeMember l depth m ++ writeMembers l depth ms)

end

/-- The text of a tree without blanks. -/
def compact (j : Json) : String := String.ofList (write .compact 0 j)

/-- The text of a tree with one item a line. -/
def indented (j : Json) : String := String.ofList (write .indented 0 j)

/-- Puts the members of every object in the order of their names. -/
def sortMembers : Json → Json
  | null => null
  | bool b => bool b
  | numeral n => numeral n
  | literal body => literal body
  | array xs => array (xs.attach.map fun x ↦ sortMembers x.1)
  | object ms =>
    object ((ms.attach.map fun m ↦ (m.1.1, sortMembers m.1.2)).mergeSort fun a b ↦
      decide (String.ofList a.1 ≤ String.ofList b.1))
termination_by j => sizeOf j
decreasing_by
  · have := List.sizeOf_lt_of_mem x.2
    simp only [array.sizeOf_spec]; omega
  · have := List.sizeOf_lt_of_mem m.2
    obtain ⟨⟨k, v⟩, hm⟩ := m
    simp only [object.sizeOf_spec, Prod.mk.sizeOf_spec] at this ⊢; omega

end Json

end ManuscriptReach
