import LaneGate.Decimal.Read
/-!
# The natural logarithm

Relevance weights are natural logarithms, and the service computes them with the
classic argument reduction: `x = 2^k · (1 + f)` with `√2/2 ≤ 1 + f < √2`, then
`log(1 + f) = f - s·(f - R)` (or a variant that keeps more bits) with
`s = f / (2 + f)` and `R` a polynomial in `s²` of degree 14. Every step below is one
double operation, in the same order, so the result agrees to the last bit with that
computation (which is not always the correctly rounded logarithm).
-/

namespace LaneGate.Decimal

/-- `ln 2`, upper part. -/
def ln2Hi : Float := Float.ofBits 0x3fe62e42fee00000
/-- `ln 2`, lower part. -/
def ln2Lo : Float := Float.ofBits 0x3dea39ef35793c76
/-- `2^54`, to scale subnormals. -/
def two54 : Float := Float.ofBits 0x4350000000000000
/-- Polynomial coefficient 1. -/
def lg1 : Float := Float.ofBits 0x3fe5555555555593
/-- Polynomial coefficient 2. -/
def lg2 : Float := Float.ofBits 0x3fd999999997fa04
/-- Polynomial coefficient 3. -/
def lg3 : Float := Float.ofBits 0x3fd2492494229359
/-- Polynomial coefficient 4. -/
def lg4 : Float := Float.ofBits 0x3fcc71c51d8e78af
/-- Polynomial coefficient 5. -/
def lg5 : Float := Float.ofBits 0x3fc7466496cb03de
/-- Polynomial coefficient 6. -/
def lg6 : Float := Float.ofBits 0x3fc39a09d078c69f
/-- Polynomial coefficient 7. -/
def lg7 : Float := Float.ofBits 0x3fc2f112df3e5244
/-- The double nearest to 1/3. -/
def third : Float := Float.ofBits 0x3fd5555555555555

/-- The upper 32 bits of a double. -/
def highWord (x : Float) : Nat := (x.toBits >>> 32).toNat

/-- A double with its upper 32 bits replaced. -/
def withHighWord (x : Float) (h : Nat) : Float :=
  Float.ofBits ((h.toUInt64 <<< 32) ||| (x.toBits &&& 0xFFFFFFFF))

/-- `f² · (1/2 - f/3)`: what `log(1 + f)` falls short of `f` by, for `|f| < 2^-20`. -/
def smallCorrection (f : Float) : Float := f * f * (0.5 - third * f)

/-- The polynomial `R` in `z = s²` of degree 14 with `log(1 + f) = 2s + s · R`, for
`s = f / (2 + f)`, evaluated as two halves in `w = z²`. -/
def series (s : Float) : Float :=
  let z := s * s
  let w := z * z
  let t1 := w * (lg2 + w * (lg4 + w * lg6))
  let t2 := z * (lg1 + w * (lg3 + w * (lg5 + w * lg7)))
  t2 + t1

/-- The logarithm of `2^k · x` for `x` from `√2/2` to `√2`, where `hx` is the top 20 bits of
`x`'s stored fraction: they pick the formula. -/
def logReduced (x : Float) (k : Int) (hx : Nat) : Float :=
  let f := x - 1.0
  let dk := Float.ofInt k
  if (0xfffff &&& (2 + hx)) < 3 then
    if f == 0.0 then
      if k = 0 then 0.0 else dk * ln2Hi + dk * ln2Lo
    else
      let r := smallCorrection f
      if k = 0 then f - r else dk * ln2Hi - ((r - dk * ln2Lo) - f)
  else
    let s := f / (2.0 + f)
    let r := series s
    if 0x6147a ≤ hx && hx ≤ 0x6b851 then
      let hfsq := 0.5 * f * f
      if k = 0 then f - (hfsq - s * (hfsq + r))
      else dk * ln2Hi - ((hfsq - (s * (hfsq + r) + dk * ln2Lo)) - f)
    else
      if k = 0 then f - s * (f - r)
      else dk * ln2Hi - ((s * (f - r) - dk * ln2Lo) - f)

/-- The logarithm of a positive normal double `x` times `2^k0`: `x` is brought to between
`√2/2` and `√2` by setting its exponent field, the power of two taken out counted in `k`. -/
def logScaled (x : Float) (k0 : Int) : Float :=
  let hx := highWord x
  if hx ≥ 0x7ff00000 then x + x
  else
    let hm := hx &&& 0xfffff
    let i := (hm + 0x95f64) &&& 0x100000
    logReduced (withHighWord x (hm ||| (i ^^^ 0x3ff00000)))
      (k0 + (hx >>> 20 : Nat) - 1023 + (i >>> 20 : Nat)) hm

/-- The natural logarithm: `-∞` at zero, NaN below zero and for NaN, `∞` at `∞`. -/
def naturalLog (x : Float) : Float :=
  let bits := x.toBits
  if bits &&& 0x7FFFFFFFFFFFFFFF == 0 then -infinity
  else if bits >>> 63 == 1 then notANumber
  else if bits >>> 52 == 0 then logScaled (x * two54) (-54)
  else logScaled x 0

end LaneGate.Decimal
