import ManuscriptReach.Text.CodeRange

/-!
# Blank characters

The blank characters are those with the Unicode property `White_Space`.
-/

namespace ManuscriptReach

/-- The characters with the Unicode property `White_Space`, as ranges of code points. -/
def blankRanges : List (Nat × Nat) :=
  [(0x09, 0x0d), (0x20, 0x20), (0x85, 0x85), (0xa0, 0xa0), (0x1680, 0x1680), (0x2000, 0x200a),
    (0x2028, 0x2029), (0x202f, 0x202f), (0x205f, 0x205f), (0x3000, 0x3000)]

/-- Whether a character is blank. -/
def isBlank (c : Char) : Bool := inRanges blankRanges c

/-- What is left when the elements that pass a test are taken off both ends of a list. -/
def trimWhere {α : Type} (p : α → Bool) (xs : List α) : List α :=
  ((xs.dropWhile p).reverse.dropWhile p).reverse

/-- A text without the blank characters at both ends. -/
def trimBlanks (s : String) : String := String.ofList (trimWhere isBlank s.toList)

/-- The maximal runs of elements that fail a test. -/
def runsOutside {α : Type} (p : α → Bool) (xs : List α) : List (List α) := (xs.splitOnP p).filter (· ≠ [])

end ManuscriptReach
