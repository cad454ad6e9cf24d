/-!
# Padding

The width of a text is the number of its characters.  A text that is too wide is left
as it is.
-/

namespace ManuscriptReach

/-- A text filled up in front. -/
def padStart (fill : Char) (width : Nat) (s : String) : String :=
  String.ofList (List.replicate (width - s.length) fill) ++ s

/-- A text filled up with spaces at its end. -/
def padEnd (width : Nat) (s : String) : String :=
  s ++ String.ofList (List.replicate (width - s.length) ' ')

/-- Some lines, each with its line end. -/
def unlines (ls : List String) : String := String.join (ls.map (· ++ "\n"))

end ManuscriptReach
