/-!
# Ranges of characters

A property of characters can be given by the ranges of code points that have it.
-/

namespace ManuscriptReach

/-- Whether the code point of a character lies in one of some ranges, which include their ends. -/
def inRanges (ranges : List (Nat × Nat)) (c : Char) : Bool :=
  ranges.any fun r ↦ r.1 ≤ c.toNat && c.toNat ≤ r.2

end ManuscriptReach
