import ManuscriptReach.Number.Binary

/-!
# The shortest decimal that reads back

Of all decimals that round to a given double, the one with the fewest digits is
taken; of those, the nearest; and of two equally near, the one with an even last
digit.  Every decimal with `n` digits that qualifies has a neighbour of the double
on the grid of `n`-digit decimals that qualifies, so two candidates are tried for
each `n`, and no double needs more than seventeen digits.
-/

namespace ManuscriptReach

/-- A decimal `digits * 10 ^ exponent`. -/
structure ScaledDecimal where
  digits : Nat
  exponent : Int
deriving DecidableEq

namespace Binary

/-- Whether a decimal rounds to the given double, which is when it lies between the midpoints to
the two neighbours; the midpoints count when the significand is even. -/
def isRoundedFrom (b : Binary) (d : ScaledDecimal) : Bool :=
  let even := b.significand % 2 == 0
  let low := 4 * b.significand - (if b.atPowerOfTwo then 1 else 2)
  let high := 4 * b.significand + 2
  let fromLow := compareDecimalBinary d.digits d.exponent low (b.exponent - 2)
  let fromHigh := compareDecimalBinary d.digits d.exponent high (b.exponent - 2)
  (fromLow == .gt || (even && fromLow == .eq)) && (fromHigh == .lt || (even && fromHigh == .eq))

/-- The decimal exponent of the first significant digit of a positive size. -/
def leadingExponent (b : Binary) : Int :=
  if b.denominator ≤ b.numerator then digitCount (b.numerator / b.denominator) - 1
  else -digitCount (b.denominator / b.numerator)

/-- The first of two decimals that rounds to the size. -/
def firstRounded? (b : Binary) (d e : ScaledDecimal) : Option ScaledDecimal :=
  if b.isRoundedFrom d then some d else if b.isRoundedFrom e then some e else none

/-- The decimal nearest to a positive size among the two neighbours with `n` digits, if one of
them rounds to it. -/
def candidate? (b : Binary) (n : Nat) : Option ScaledDecimal :=
  let exponent := b.leadingExponent - n + 1
  let numerator := b.numerator * tenTo (-exponent).toNat
  let denominator := b.denominator * tenTo exponent.toNat
  let below := numerator / denominator
  let rest := 2 * (numerator % denominator)
  let lower : ScaledDecimal := ⟨below, exponent⟩
  let upper : ScaledDecimal := ⟨below + 1, exponent⟩
  let lowerFirst := decide (rest < denominator) || (rest == denominator && below % 2 == 0)
  if lowerFirst then b.firstRounded? lower upper else b.firstRounded? upper lower

/-- A single significant digit that came out as ten is a one, one place further left. -/
def carry (d : ScaledDecimal) : ScaledDecimal :=
  if d.digits = 10 then ⟨1, d.exponent + 1⟩ else d

/-- The shortest decimal that rounds to the size; zero is itself. -/
def shortest (b : Binary) : ScaledDecimal :=
  if b.significand = 0 then ⟨0, 0⟩
  else
    (((List.range' 1 17).findSome? b.candidate?).map carry).getD ⟨b.numerator / b.denominator, 0⟩

end Binary

end ManuscriptReach
