import LaneGate.Decimal.Shortest
import LaneGate.Decimal.Read
/-!
# Number text

How the service writes a number, and how it rounds one:

* `numberText`: the shortest digits that read back, written positionally from
  `10^-6` up to below `10^21` and with an exponent `e+n` / `e-n` outside that range;
  no trailing `.0`; both zeros are `0`; `NaN`, `Infinity`, `-Infinity`.
* `fixedText x f`: exactly `f` places, the exact binary value rounded to the nearest
  multiple of `10^-f`, a tie going up; values from `10^21` on as `numberText`.
* `roundHalfUp`: the nearest integer, a tie going towards positive infinity.
* `floorOf`: the greatest integer not above a number.
-/

namespace LaneGate.Decimal

/-- `k` zero digits. -/
def zeros (k : Nat) : List Char := List.replicate k '0'

/-- Digits and point position laid out: positionally for points from `-5` to `21`,
otherwise one digit, the rest after a point, and the exponent with its sign. -/
def Digits.layout (d : Digits) : String :=
  let k : Int := d.digits.length
  let n := d.point
  if k ≤ n ∧ n ≤ 21 then String.ofList (d.digits ++ zeros (n - k).toNat)
  else if 0 < n ∧ n ≤ 21 then
    String.ofList (d.digits.take n.toNat ++ '.' :: d.digits.drop n.toNat)
  else if -6 < n ∧ n ≤ 0 then String.ofList ('0' :: '.' :: zeros (-n).toNat ++ d.digits)
  else
    let e := n - 1
    let sign := if e ≥ 0 then "+" else "-"
    let mant := match d.digits with
      | [] => "0"
      | [c] => String.ofList [c]
      | c :: rest => String.ofList (c :: '.' :: rest)
    mant ++ "e" ++ sign ++ toString e.natAbs

/-- The text of a number: shortest digits that read back, laid out by `Digits.layout`. -/
def numberText (x : Float) : String :=
  if isNaN x then "NaN"
  else if !isFinite x then (if signBit x then "-Infinity" else "Infinity")
  else
    let b := Binary.ofFloat x
    if b.mant = 0 then "0"
    else (if b.neg then "-" else "") ++ (shortest b.mant b.exp).layout

/-- `⌊b · 2^e · 10^f + 1/2⌋`: the magnitude `b · 2^e` in units of `10^-f`, a tie
going up. -/
def roundedUnits (b : Nat) (e : Int) (f : Nat) : Nat :=
  if e ≥ 0 then b * Nat.pow 2 e.toNat * Nat.pow 10 f
  else (2 * b * Nat.pow 10 f + Nat.pow 2 (-e).toNat) / (2 * Nat.pow 2 (-e).toNat)

/-- The units of `10^-f` written with exactly `f` places. -/
def placesText (units : Nat) (f : Nat) : String :=
  let ds := Nat.toDigits 10 units
  if f = 0 then String.ofList ds
  else
    let padded := zeros (f + 1 - ds.length) ++ ds
    String.ofList (padded.take (padded.length - f) ++ '.' :: padded.drop (padded.length - f))

/-- A number with exactly `f` places after the point. -/
def fixedText (x : Float) (f : Nat) : String :=
  if !isFinite x then numberText x
  else
    let b := Binary.ofFloat x
    if b.mant * Nat.pow 2 b.exp.toNat ≥ Nat.pow 10 21 * Nat.pow 2 (-b.exp).toNat then numberText x
    else
      (if b.neg && b.mant != 0 then "-" else "") ++ placesText (roundedUnits b.mant b.exp f) f

/-- The integer nearest to a number, a tie going towards positive infinity; numbers
from `2^52` on are integers already, and a negative number that rounds to zero gives
the negative zero. Below `2^52` the floor is an integer that a double holds exactly,
taken from the bits (`floorPart`). -/
def roundHalfUp (x : Float) : Float :=
  if !isFinite x || x.abs ≥ 4503599627370496.0 then x
  else
    let f := Float.ofInt (floorPart x)
    let r := if x - f ≥ 0.5 then f + 1.0 else f
    if r == 0 && (x < 0 || signBit x) then negZero else r

/-- The greatest integer not above a number. Numbers of size `2^52` and more, the zeros,
the infinities and NaN are their own floor; below `2^52` the floor is an integer that a
double holds exactly, taken from the bits (`floorPart`). -/
def floorOf (x : Float) : Float :=
  if !isFinite x || x.abs ≥ 4503599627370496.0 || x == 0 then x else Float.ofInt (floorPart x)

/-- The larger of two numbers: NaN if either is NaN, and `0` above `-0`. -/
def maxOf (a b : Float) : Float :=
  if isNaN a || isNaN b then notANumber
  else if a > b then a else if b > a then b else if signBit a then b else a

/-- The smaller of two numbers: NaN if either is NaN, and `-0` below `0`. -/
def minOf (a b : Float) : Float :=
  if isNaN a || isNaN b then notANumber
  else if a < b then a else if b < a then b else if signBit a then a else b

/-- The largest of a list of numbers (negative infinity for none). -/
def maximum (xs : List Float) : Float := xs.foldl maxOf (-infinity)

/-- The smallest of a list of numbers (infinity for none). -/
def minimum (xs : List Float) : Float := xs.foldl minOf infinity

/-- `x` rounded to `d` decimal places: the nearest multiple of `10^-d` in double
arithmetic, a tie going up. The service rounds to one and to four places, where
`10^d` is a double exactly. -/
def roundTo (x : Float) (d : Nat) : Float :=
  let factor := (Nat.pow 10 d).toFloat
  roundHalfUp (x * factor) / factor

end LaneGate.Decimal
