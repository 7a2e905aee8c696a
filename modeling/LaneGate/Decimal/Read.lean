import LaneGate.Decimal.Binary
/-!
# The double nearest to a decimal

Reading a decimal `n · 10^p` gives the double nearest to it; of two equally near, the
one with the even mantissa. Past the largest double the answer is an infinity, below
half the smallest subnormal it is a zero of the decimal's sign.

The quotient is taken exactly: first the binary exponent that leaves 53 bits of
quotient (or the subnormal exponent), then one rounding of the remainder.
-/

namespace LaneGate.Decimal

/-- Positive infinity. -/
def infinity : Float := Float.ofBits 0x7FF0000000000000

/-- Negative zero. -/
def negZero : Float := Float.ofBits 0x8000000000000000

/-- Not a number. -/
def notANumber : Float := Float.ofBits 0x7FF8000000000000

/-- The signed zero or infinity. -/
def signed (neg : Bool) (x : Float) : Float := if neg then -x else x

/-- `⌊num · 2^(-e) / den⌋` and whether the rest is below, at or above one half. -/
def quotientAt (num den : Nat) (e : Int) : Nat × Ordering :=
  let a := num * Nat.pow 2 (-e).toNat
  let b := den * Nat.pow 2 e.toNat
  (a / b, compare (2 * (a % b)) b)

/-- The binary exponent that leaves a quotient in `[2^52, 2^53)`, starting from the
estimate of the two lengths and corrected by one either way. -/
def quotientExponent (num den : Nat) : Int :=
  let est : Int := (Nat.log2 num : Int) - (Nat.log2 den : Int) - 52
  let q (e : Int) := (quotientAt num den e).1
  let e1 := if q est < Nat.pow 2 fracBits then est - 1 else if q est ≥ Nat.pow 2 (fracBits + 1) then est + 1 else est
  if q e1 < Nat.pow 2 fracBits then e1 - 1 else if q e1 ≥ Nat.pow 2 (fracBits + 1) then e1 + 1 else e1

/-- The double nearest to `num / den` (both positive), with the given sign. -/
def nearestRatio (neg : Bool) (num den : Nat) : Float :=
  let e := max (quotientExponent num den) (-1074)
  let (q, half) := quotientAt num den e
  let q := if half == .gt || (half == .eq && q % 2 == 1) then q + 1 else q
  let (q, e) := if q = Nat.pow 2 (fracBits + 1) then (Nat.pow 2 fracBits, e + 1) else (q, e)
  if e > 971 then signed neg infinity
  else Binary.toFloat ⟨neg, q, e⟩

/-- The double nearest to `n · 10^p`, with the given sign. -/
def ofDecimal (neg : Bool) (n : Nat) (p : Int) : Float :=
  if n = 0 then signed neg 0.0
  else if (digitCount n : Int) + p > 310 then signed neg infinity
  else if (digitCount n : Int) + p < -330 then signed neg 0.0
  else nearestRatio neg (n * Nat.pow 10 p.toNat) (Nat.pow 10 (-p).toNat)

end LaneGate.Decimal
