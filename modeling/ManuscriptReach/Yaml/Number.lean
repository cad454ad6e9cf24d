import ManuscriptReach.Yaml.Scalar
import ManuscriptReach.Json.Numeral

/-!
# Numbers in YAML scalars

A natural number is written in decimal digits, without needless zeros in front, or
after `0x`, `0o` or `0b` in the digits of another base.  A double is written with a
point, an exponent or neither, and there are words for the infinities and for what is
no number.
-/

namespace ManuscriptReach.Yaml

/-- The number that one or more digits denote in a base of at most sixteen. -/
def digitsIn? (base : Nat) (cs : List Char) : Option Nat :=
  if cs = [] then none
  else cs.foldlM (fun v c ↦ do
    let d ← hexValue? c
    if d < base then return base * v + d else none) 0

/-- Whether decimal digits begin with a needless zero. -/
def hasNeedlessZero (cs : List Char) : Bool :=
  match cs with
  | '0' :: c :: cs => (c :: cs).all Char.isDigit
  | _ => false

/-- The size of an integer without its sign. -/
def size? : List Char → Option Nat
  | '0' :: 'x' :: cs => digitsIn? 16 cs
  | '0' :: 'o' :: cs => digitsIn? 8 cs
  | '0' :: 'b' :: cs => digitsIn? 2 cs
  | cs => if hasNeedlessZero cs then none else digitsIn? 10 cs

/-- The natural number below `2 ^ 64` that a text denotes. -/
def natural? (s : String) : Option Nat :=
  match s.toList with
  | '+' :: cs => (size? cs).filter (· < wordLimit)
  | cs => (size? cs).filter (· < wordLimit)

/-- The decimal exponent after the letter for it, where there may be one. -/
def exponent? : List Char → Option Int
  | [] => some 0
  | e :: cs =>
    if e == 'e' || e == 'E' then
      match cs with
      | '-' :: cs => (digitsIn? 10 cs).map fun n ↦ -(n : Int)
      | '+' :: cs => (digitsIn? 10 cs).map Int.ofNat
      | cs => (digitsIn? 10 cs).map Int.ofNat
    else none

/-- The double nearest to `digits * 10 ^ exponent`, where exponents far outside the range of
doubles are cut back. -/
def nearestDouble (digits : Nat) (exponent : Int) : Float :=
  let reach : Int := 400 + digitCount digits
  if exponent < -reach then 0
  else if digits = 0 then 0
  else if reach < exponent then Float.ofScientific 1 false 400
  else Float.ofScientific digits (decide (exponent < 0)) exponent.natAbs

/-- The finite double that a decimal without sign denotes. -/
def decimal? (cs : List Char) : Option Float := do
  let whole := cs.takeWhile Char.isDigit
  let rest := cs.dropWhile Char.isDigit
  let afterPoint := if rest.head? == some '.' then rest.drop 1 else []
  let places := afterPoint.takeWhile Char.isDigit
  let tail := if rest.head? == some '.' then afterPoint.dropWhile Char.isDigit else rest
  if whole = [] ∧ places = [] then none
  let exponent ← exponent? tail
  let x := nearestDouble (digitsValue (whole ++ places)) (exponent - places.length)
  if x.isFinite then return x else none

/-- The words for infinity. -/
def infinityWords : List String := [".inf", ".Inf", ".INF"]

/-- The words for what is no number. -/
def noNumberWords : List String := [".nan", ".NaN", ".NAN"]

/-- The double that a text denotes. -/
def float? (s : String) : Option Float :=
  if s ∈ infinityWords then some (1 / 0)
  else if s ∈ noNumberWords then some (0 / 0)
  else
    match s.toList with
    | '+' :: cs => if String.ofList cs ∈ infinityWords then some (1 / 0) else decimal? cs
    | '-' :: cs => if String.ofList cs ∈ infinityWords then some (-1 / 0) else (decimal? cs).map (-·)
    | cs => decimal? cs

end ManuscriptReach.Yaml
