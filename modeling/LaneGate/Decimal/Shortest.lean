import LaneGate.Decimal.Binary
/-!
# The shortest decimal that reads back

A positive double `m · 2^e` stands for every real that rounds to it: the interval
halfway to its two neighbours, with both ends included when `m` is even (a tie
rounds to the even mantissa). The shortest decimal of the double is the decimal
with the fewest significant digits inside that interval; of two with that many
digits, the one nearer the double, and of two equally near, the one with an even
last digit.

The search tries 1, 2, … 17 digits. On the grid of `k`-digit decimals only the two
grid points around the double can be nearest, and if any point of the grid lies in
the interval, one of those two does; seventeen digits always succeed.
-/

namespace LaneGate.Decimal

/-- Significant digits `d₁ … dₖ` without trailing zeros and a point position `n`:
the value `0.d₁…dₖ × 10^n`. -/
structure Digits where
  /-- The significant digits, first to last. -/
  digits : List Char
  /-- Where the decimal point stands, counted from the first digit. -/
  point : Int
  deriving DecidableEq, Repr

/-- The position `n` with `10^(n-1) ≤ m · 2^e < 10^n`, for `m > 0`: first estimated
from the binary length, then corrected against exact powers of ten. -/
def decimalPoint (m : Nat) (e : Int) : Int :=
  let est : Int := ((Nat.log2 m : Int) + e) * 30103 / 100000 + 1
  let up (n : Int) : Int := if cmpScaled 1 n m e != .gt then n + 1 else n
  let down (n : Int) : Int := if cmpScaled 1 (n - 1) m e == .gt then n - 1 else n
  down (down (up (up est)))

/-- The interval of reals that round to the double `m · 2^e`, as its ends scaled by
`2^(e-2)` and whether the ends belong to it. -/
structure Rounding where
  /-- Lower end, times `2^(2-e)`. -/
  low : Nat
  /-- The value itself, times `2^(2-e)`. -/
  mid : Nat
  /-- Upper end, times `2^(2-e)`. -/
  high : Nat
  /-- Whether the ends round to the value (its mantissa is even). -/
  closed : Bool

/-- The rounding interval of `m · 2^e`. Below a power of two the lower neighbour is
half as far away, unless the double is the smallest normal one. -/
def Rounding.of (m : Nat) (e : Int) : Rounding :=
  let lowGap := if m = Nat.pow 2 fracBits ∧ e > -1074 then 1 else 2
  ⟨4 * m - lowGap, 4 * m, 4 * m + 2, m % 2 == 0⟩

/-- Whether `s · 10^p` lies in the rounding interval of `m · 2^e`. -/
def Rounding.accepts (r : Rounding) (e : Int) (s : Nat) (p : Int) : Bool :=
  let lo := cmpScaled s p r.low (e - 2)
  let hi := cmpScaled s p r.high (e - 2)
  (lo == .gt || (r.closed && lo == .eq)) && (hi == .lt || (r.closed && hi == .eq))

/-- The `k`-digit decimal of `m · 2^e` that reads back, if there is one: the nearer of
the two grid points around the value, an exact tie going to the even one. -/
def onGrid (m : Nat) (e : Int) (n : Int) (k : Nat) : Option (Nat × Int) :=
  let r := Rounding.of m e
  let p := n - k
  let s0 := floorScaled r.mid (e - 2) p
  let s1 := s0 + 1
  let in0 := s0 > 0 && r.accepts e s0 p
  let in1 := r.accepts e s1 p
  if in0 && in1 then
    match cmpScaled (2 * s0 + 1) p (2 * r.mid) (e - 2) with
    | .lt => some (s1, p)
    | .gt => some (s0, p)
    | .eq => some (if s0 % 2 == 0 then s0 else s1, p)
  else if in0 then some (s0, p)
  else if in1 then some (s1, p)
  else none

/-- The digits of `s · 10^p` with trailing zeros removed. -/
def Digits.ofScaled (s : Nat) (p : Int) : Digits :=
  let ds := Nat.toDigits 10 s
  ⟨(ds.reverse.dropWhile (· == '0')).reverse, ds.length + p⟩

/-- The shortest decimal of the positive double `m · 2^e` (`m > 0`). -/
def shortest (m : Nat) (e : Int) : Digits :=
  let n := decimalPoint m e
  match (List.range 17).findSome? (fun i => onGrid m e n (i + 1)) with
  | some (s, p) => Digits.ofScaled s p
  | none => Digits.ofScaled (floorScaled (4 * m) (e - 2) (n - 17)) (n - 17)

end LaneGate.Decimal
