import ManuscriptReach.Number.Power

/-!
# The binary value of a double

A finite double is `m * 2 ^ q` with a sign, for a natural `m` below `2 ^ 53` and an
integer `q`.  `Binary.ofFloat?` reads the three off the bits.  Sizes are compared
exactly, over the naturals.
-/

namespace ManuscriptReach

/-- A finite double: a sign and the value `significand * 2 ^ exponent`. -/
structure Binary where
  negative : Bool
  significand : Nat
  exponent : Int
  /-- Whether the double just below is only half as far away as the one above. -/
  atPowerOfTwo : Bool
deriving DecidableEq

namespace Binary

/-- The parts of a finite double, read off its bits. -/
def ofFloat? (x : Float) : Option Binary :=
  let bits : Nat := x.toBits.toNat
  let fraction : Nat := bits % twoTo 52
  let field : Nat := bits / twoTo 52 % twoTo 11
  let negative := decide (twoTo 63 ≤ bits)
  if field = 2047 then none
  else if field = 0 then some ⟨negative, fraction, -1074, false⟩
  else some ⟨negative, fraction + twoTo 52, (field : Int) - 1075, fraction == 0 && decide (1 < field)⟩

/-- The numerator of the size. -/
def numerator (b : Binary) : Nat := b.significand * twoTo b.exponent.toNat

/-- The denominator of the size, a power of two. -/
def denominator (b : Binary) : Nat := twoTo (-b.exponent).toNat

end Binary

/-- Whether `c * 10 ^ e` is less than, equal to or greater than `m * 2 ^ q`. -/
def compareDecimalBinary (c : Nat) (e : Int) (m : Nat) (q : Int) : Ordering :=
  compare (c * tenTo e.toNat * twoTo (-q).toNat) (m * twoTo q.toNat * tenTo (-e).toNat)

/-- The number of decimal digits of a natural number, one for zero. -/
def digitCount (n : Nat) : Nat := (Nat.toDigits 10 n).length

end ManuscriptReach
