import ManuscriptReach.Number.Shortest

/-!
# JSON numerals

A numeral keeps the digits that are written.  A reader that wants a natural number
takes only a plain run of digits, without sign, point or exponent, that fits in 64
bits; a reader that wants a double takes every numeral that is not too large.

A double is read from as many leading digits as fit in a 64-bit word: further whole
digits raise the power of ten, further places are dropped.  The word becomes a
double, which is then multiplied or divided by the power of ten once.
-/

namespace ManuscriptReach

/-- The power of ten of a numeral. -/
structure Exponent where
  negative : Bool
  digits : List Char
deriving DecidableEq

/-- A numeral as written.  There is a point exactly when there are places after it. -/
structure Numeral where
  negative : Bool
  whole : List Char
  places : List Char
  exponent : Option Exponent
deriving DecidableEq

/-- The natural number that some decimal digits denote. -/
def digitsValue (ds : List Char) : Nat := Nat.ofDigitChars 10 ds 0

/-- One more than the largest 64-bit word. -/
def wordLimit : Nat := twoTo 64

namespace Exponent

/-- The exponent as written, with a sign in any case. -/
def text (e : Exponent) : List Char := 'e' :: (if e.negative then '-' else '+') :: e.digits

/-- The power of ten. -/
def value (e : Exponent) : Int := if e.negative then -digitsValue e.digits else digitsValue e.digits

end Exponent

namespace Numeral

/-- The numeral as written. -/
def text (n : Numeral) : List Char :=
  (if n.negative then ['-'] else []) ++ n.whole ++
    (if n.places = [] then [] else '.' :: n.places) ++ n.exponent.elim [] Exponent.text

/-- Whether digits may stand before the point: there is one, and no needless zero in front. -/
def wholeAllowed : List Char → Bool
  | [] => false
  | c :: cs => c != '0' || cs.isEmpty

/-- Reads the digits of an exponent after its letter. -/
def readExponent? (cs : List Char) : Option (Exponent × List Char) :=
  let (negative, rest) :=
    match cs with
    | '-' :: r => (true, r)
    | '+' :: r => (false, r)
    | _ => (false, cs)
  if rest.takeWhile Char.isDigit = [] then none
  else some (⟨negative, rest.takeWhile Char.isDigit⟩, rest.dropWhile Char.isDigit)

/-- Reads an exponent where there may be one. -/
def readTail? (cs : List Char) : Option (Option Exponent × List Char) :=
  match cs with
  | 'e' :: r => (readExponent? r).map fun p ↦ (some p.1, p.2)
  | 'E' :: r => (readExponent? r).map fun p ↦ (some p.1, p.2)
  | _ => some (none, cs)

/-- Reads the places after a point where there may be one. -/
def readPlaces? (cs : List Char) : Option (List Char × List Char) :=
  match cs with
  | '.' :: r =>
    if r.takeWhile Char.isDigit = [] then none
    else some (r.takeWhile Char.isDigit, r.dropWhile Char.isDigit)
  | _ => some ([], cs)

/-- Reads the longest numeral at the front of a text after its sign. -/
def readUnsigned? (negative : Bool) (cs : List Char) : Option (Numeral × List Char) := do
  let whole := cs.takeWhile Char.isDigit
  if wholeAllowed whole then
    let (places, afterPlaces) ← readPlaces? (cs.dropWhile Char.isDigit)
    let (exponent, rest) ← readTail? afterPlaces
    return (⟨negative, whole, places, exponent⟩, rest)
  else none

/-- Reads the longest numeral at the front of a text. -/
def read? (cs : List Char) : Option (Numeral × List Char) :=
  match cs with
  | '-' :: r => readUnsigned? true r
  | _ => readUnsigned? false cs

/-- The numeral of a natural number. -/
def ofNat (n : Nat) : Numeral := ⟨false, Nat.toDigits 10 n, [], none⟩

/-- The natural number below `2 ^ 64` that a numeral without sign, point and exponent denotes. -/
def natural? (n : Numeral) : Option Nat :=
  if n.negative = false ∧ n.places = [] ∧ n.exponent = none ∧ digitsValue n.whole < wordLimit then
    some (digitsValue n.whole)
  else none

/-- The natural number below `2 ^ 64` that a text denotes which is all digits. -/
def readNatural? (cs : List Char) : Option Nat :=
  if cs.all Char.isDigit && wholeAllowed cs then natural? ⟨false, cs, [], none⟩ else none

/-- Takes whole digits into a word while they fit, and counts those that no longer do. -/
def takeWhole : List Char → Nat → Nat × Nat
  | [], word => (word, 0)
  | c :: cs, word =>
    let next := word * 10 + digitsValue [c]
    if next < wordLimit then takeWhole cs next else (word, cs.length + 1)

/-- Takes places into a word while they fit, and counts those that do. -/
def takePlaces : List Char → Nat → Nat × Nat
  | [], word => (word, 0)
  | c :: cs, word =>
    let next := word * 10 + digitsValue [c]
    if next < wordLimit then
      let (final, taken) := takePlaces cs next
      (final, taken + 1)
    else (word, 0)

/-- A power of ten as a double. -/
def powerOfTen (e : Nat) : Float := Float.ofScientific 1 false e

/-- Multiplies or divides a double by a power of ten, in at most two steps; `none` when the result
is too large. -/
def scale? (x : Float) (e : Int) : Option Float :=
  if 0 ≤ e then
    if e ≤ 308 then
      let y := x * powerOfTen e.toNat
      if y.isFinite then some y else none
    else if x == 0 then some x else none
  else if -308 ≤ e then some (x / powerOfTen (-e).toNat)
  else if -616 ≤ e then some (x / powerOfTen 308 / powerOfTen (-(e + 308)).toNat)
  else some 0

/-- The double that a numeral denotes; `none` when it is too large. -/
def float? (n : Numeral) : Option Float :=
  let (word, dropped) := takeWhole n.whole 0
  let (word, taken) := takePlaces n.places word
  let exponent := (n.exponent.elim 0 Exponent.value) + dropped - taken
  (scale? (Float.ofNat word) exponent).map fun x ↦ if n.negative then -x else x

/-- The numeral of a decimal: positional when the point falls among the first sixteen digits or at
most five places in front of them, with a power of ten otherwise. -/
def ofDecimal (negative : Bool) (d : ScaledDecimal) : Numeral :=
  let ds := Nat.toDigits 10 d.digits
  let point : Int := ds.length + d.exponent
  if 0 ≤ d.exponent ∧ point ≤ 16 then
    ⟨negative, ds ++ List.replicate d.exponent.toNat '0', ['0'], none⟩
  else if 0 < point ∧ point ≤ 16 then
    ⟨negative, ds.take point.toNat, ds.drop point.toNat, none⟩
  else if -5 < point ∧ point ≤ 0 then
    ⟨negative, ['0'], List.replicate (-point).toNat '0' ++ ds, none⟩
  else
    ⟨negative, ds.take 1, ds.drop 1, some ⟨decide (point < 1), Nat.toDigits 10 (point - 1).natAbs⟩⟩

/-- The numeral of a finite double: the shortest one that denotes it. -/
def ofFloat? (x : Float) : Option Numeral :=
  (Binary.ofFloat? x).map fun b ↦ ofDecimal b.negative b.shortest

end Numeral

end ManuscriptReach
