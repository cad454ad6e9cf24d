import ManuscriptReach.Number.Binary
import ManuscriptReach.Text.Pad

/-!
# Numbers with a fixed number of decimal places

The exact value of a double is rounded to the nearest multiple of the last place;
a tie goes to the even neighbour.
-/

namespace ManuscriptReach

/-- The natural number nearest to a quotient; of two equally near, the even one. -/
def roundDiv (numerator denominator : Nat) : Nat :=
  let q := numerator / denominator
  let twice := 2 * (numerator % denominator)
  if twice < denominator ∨ (twice = denominator ∧ q % 2 = 0) then q else q + 1

/-- A double with `places` decimal places, at least one. -/
def fixedText (places : Nat) (x : Float) : String :=
  match Binary.ofFloat? x with
  | some b =>
    let scaled := roundDiv (b.numerator * tenTo places) b.denominator
    (if b.negative then "-" else "") ++ toString (scaled / tenTo places) ++ "." ++
      padStart '0' places (toString (scaled % tenTo places))
  | none => if x.isNaN then "NaN" else if x < 0 then "-inf" else "inf"

end ManuscriptReach
