/-!
# Cutting into lines

A line ends at a line feed, and one carriage return right before it belongs to
the line end.  What follows the last line feed is a line when it is not empty.
The cut works on bytes as well as on characters.
-/

namespace ManuscriptReach

variable {α : Type} [DecidableEq α]

/-- The elements of a line read backwards, without a carriage return at its end. -/
def closeLine (cr : α) : List α → List α
  | [] => []
  | x :: xs => if x = cr then xs.reverse else (x :: xs).reverse

/-- The lines of `acc` read backwards followed by the given elements. -/
def linesAfter (lf cr : α) (acc : List α) : List α → List (List α)
  | [] => if acc.isEmpty then [] else [acc.reverse]
  | x :: xs =>
    if x = lf then closeLine cr acc :: linesAfter lf cr [] xs else linesAfter lf cr (x :: acc) xs

/-- The lines of a list of bytes or characters. -/
def linesOf (lf cr : α) (xs : List α) : List (List α) := linesAfter lf cr [] xs

/-- The lines of a sequence of bytes. -/
def byteLines (bytes : ByteArray) : List ByteArray :=
  (linesOf 10 13 bytes.toList).map fun l ↦ ⟨l.toArray⟩

end ManuscriptReach
