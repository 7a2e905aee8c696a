import LaneGate.Decimal.Read
/-!
# Doubles written as text by the database

A column of texts keeps a double it is given as text, written with fifteen
significant digits the way the database's `%!.15g` format does:

* the digits come from scaling the double into `[10¹⁷, 10¹⁹)` by powers of ten in
  extended precision (a 64-bit mantissa, every product rounded to nearest), then
  reading the scaled value as a whole number (`scaledDigits`);
* those digits are cut to fifteen, rounding half up on the sixteenth digit alone, and
  trailing zeros are dropped (`roundDigits`);
* with `e` the decimal exponent of the first digit, the number is written plainly
  when `-4 ≤ e ≤ 14` and as `d.ddd e±XX` otherwise (at least two exponent digits);
  trailing zeros after the point are dropped, but one digit always follows it, so
  `5` is written `5.0` and `10²¹` is `1.0e+21`;
* zero (of either sign) is `0.0`, and the infinities are `Inf` and `-Inf`.
-/

namespace LaneGate.Store

/-- A positive number `mant · 2^exp` with a 64-bit mantissa (`2^63 ≤ mant < 2^64`):
the extended precision the database's digits are computed in. -/
structure Extended where
  /-- The mantissa, of exactly 64 bits. -/
  mant : Nat
  /-- The power of two it is scaled by. -/
  exp : Int

namespace Extended

/-- `2^63`, the smallest 64-bit mantissa. -/
def low : Nat := 9223372036854775808

/-- The quotient of `n · 2^s` by `d`, with its remainder and divisor. -/
def scaledQuot (n d : Nat) (s : Int) : Nat × Nat × Nat :=
  if s ≥ 0 then
    let a := n * Nat.pow 2 s.toNat
    (a / d, a % d, d)
  else
    let b := d * Nat.pow 2 s.natAbs
    (n / b, n % b, b)

/-- A quotient rounded to nearest, ties to an even quotient, at scale `2^-s`; a
quotient that rounds up to `2^64` is renormalised. -/
def rounded (q r b : Nat) (s : Int) : Extended :=
  let q := if 2 * r > b || (2 * r == b && q % 2 == 1) then q + 1 else q
  if q == 2 * low then ⟨low, 1 - s⟩ else ⟨q, -s⟩

/-- The positive fraction `n / d` rounded to the nearest extended number. -/
def ofRatio (n d : Nat) : Extended :=
  let s : Int := 63 + (Nat.log2 d : Int) - (Nat.log2 n : Int)
  let (q, r, b) := scaledQuot n d s
  if q < low then
    let (q, r, b) := scaledQuot n d (s + 1)
    rounded q r b (s + 1)
  else rounded q r b s

/-- A positive finite double, exactly. -/
def ofFloat (x : Float) : Extended :=
  let b := Decimal.Binary.ofFloat x
  let shift := 63 - Nat.log2 b.mant
  ⟨b.mant * Nat.pow 2 shift, b.exp - shift⟩

/-- The product, rounded to nearest. -/
def mul (x y : Extended) : Extended :=
  let n := x.mant * y.mant
  let k := Nat.log2 n - 63
  let p := Nat.pow 2 k
  rounded (n / p) (n % p) p (-(x.exp + y.exp + k))

/-- Whether `x < y`; both mantissas have 64 bits, so exponents decide first. -/
def lt (x y : Extended) : Bool := x.exp < y.exp || (x.exp == y.exp && x.mant < y.mant)

/-- The whole part. -/
def floor (x : Extended) : Nat :=
  if x.exp ≥ 0 then x.mant * Nat.pow 2 x.exp.toNat else x.mant / Nat.pow 2 x.exp.natAbs

/-- `10^k` rounded. -/
def tenTo (k : Nat) : Extended := ofRatio (Nat.pow 10 k) 1

/-- `10^-k` rounded. -/
def tenToMinus (k : Nat) : Extended := ofRatio 1 (Nat.pow 10 k)

/-- Multiplies by a factor while the value is at least a bound, counting the steps. -/
def shrinkWhile (bound factor : Extended) : Nat → Extended × Nat → Extended × Nat
  | 0, acc => acc
  | fuel + 1, (x, n) => if !x.lt bound then shrinkWhile bound factor fuel (x.mul factor, n + 1) else (x, n)

/-- Multiplies by a factor while the value is below a bound, counting the steps. -/
def growWhile (bound factor : Extended) : Nat → Extended × Nat → Extended × Nat
  | 0, acc => acc
  | fuel + 1, (x, n) => if x.lt bound then growWhile bound factor fuel (x.mul factor, n + 1) else (x, n)

end Extended

/-- Steps enough for any scaling loop: no double needs more than a dozen. -/
def scaleFuel : Nat := 64

/-- A positive finite double as a whole number of 18 or 19 digits and the power of
ten it was divided by: `x ≈ v · 10^k`. The double is scaled into `[10¹⁷, 10¹⁹)` by
powers of ten in steps of a hundred, ten and one, each product rounded to the
extended precision, and the result is cut to its whole part. -/
def scaledDigits (x : Float) : Nat × Int :=
  open Extended in
  let start := ofFloat x
  let (w, k) :=
    if !start.lt (tenTo 19) then
      let (w, a) := shrinkWhile (tenTo 119) (tenToMinus 100) scaleFuel (start, 0)
      let (w, b) := shrinkWhile (tenTo 29) (tenToMinus 10) scaleFuel (w, 0)
      let (w, c) := shrinkWhile (tenTo 19) (tenToMinus 1) scaleFuel (w, 0)
      (w, (100 * a + 10 * b + c : Int))
    else
      let (w, a) := growWhile (tenToMinus 97) (tenTo 100) scaleFuel (start, 0)
      let (w, b) := growWhile (tenTo 7) (tenTo 10) scaleFuel (w, 0)
      let (w, c) := growWhile (tenTo 17) (tenTo 1) scaleFuel (w, 0)
      (w, -(100 * a + 10 * b + c : Int))
  (w.floor, k)

/-- Adds one to a list of digits written least significant first, with the carry;
the flag says whether the carry ran out of digits. -/
def carryUp : List Nat → List Nat × Bool
  | [] => ([], true)
  | d :: ds => if d < 9 then ((d + 1) :: ds, false) else
    let (ds, out) := carryUp ds
    (0 :: ds, out)

/-- Digits cut to `keep` (rounding half up on the first digit dropped) with trailing
zeros removed, and the position of the decimal point after the cut: the digits
`d₁d₂…` with point position `p` stand for `0.d₁d₂… · 10^p`. -/
def roundDigits (keep : Nat) (digits : List Nat) (point : Int) : List Nat × Int :=
  let (ds, point) :=
    if keep < digits.length then
      let kept := digits.take keep
      if digits.getD keep 0 ≥ 5 then
        let (up, out) := carryUp kept.reverse
        if out then (1 :: up.reverse, point + 1) else (up.reverse, point)
      else (kept, point)
    else (digits, point)
  ((ds.reverse.dropWhile (· == 0)).reverse, point)

/-- The decimal digits of a whole number, most significant first. -/
def decimalDigits (n : Nat) : List Nat := (Nat.toDigits 10 n).map fun c => c.toNat - '0'.toNat

/-- The text of a digit. -/
def digitChar (d : Nat) : Char := Char.ofNat ('0'.toNat + d)

/-- Drops trailing zeros after a point, keeping at least one digit after it. -/
def trimFraction (frac : List Char) : List Char :=
  match (frac.reverse.dropWhile (· == '0')).reverse with
  | [] => ['0']
  | fs => fs

/-- The exponent suffix: `e`, its sign, and at least two digits. -/
def exponentText (e : Int) : String :=
  let digits := toString e.natAbs
  "e" ++ (if e < 0 then "-" else "+") ++ (if digits.length < 2 then "0" ++ digits else digits)

/-- The text the database writes for a double. -/
def realText (x : Float) : String :=
  if x.isNaN then "NaN"
  else if x.isInf then (if x < 0 then "-Inf" else "Inf")
  else if x == 0 then "0.0"
  else
    let sign := if x < 0 then "-" else ""
    let (v, k) := scaledDigits x.abs
    let raw := decimalDigits v
    let (ds, point) := roundDigits 15 raw (raw.length + k)
    let e := point - 1
    let digit (i : Nat) : Char := digitChar (ds.getD i 0)
    if e < -4 || e > 14 then
      let frac := (List.range 14).map fun i => digit (i + 1)
      sign ++ String.singleton (digit 0) ++ "." ++ String.ofList (trimFraction frac) ++ exponentText e
    else if e < 0 then
      let zeros := List.replicate (e.natAbs - 1) '0'
      let frac := zeros ++ (List.range (14 - e).toNat).map fun i => digit i
      sign ++ "0." ++ String.ofList (trimFraction (frac.take (14 - e).toNat))
    else
      let whole := (List.range (e.toNat + 1)).map digit
      let frac := (List.range (14 - e).toNat).map fun i => digit (e.toNat + 1 + i)
      sign ++ String.ofList whole ++ "." ++ String.ofList (trimFraction frac)

end LaneGate.Store
