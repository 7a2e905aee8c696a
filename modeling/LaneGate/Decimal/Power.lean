import LaneGate.Decimal.Log
/-!
# Powers

`power x y` is `x^y` computed the classic way: `log2 |x|` to about 80 bits as a
pair of doubles `t1 + t2` (a rational approximation after reducing `|x|` to
`[√2/2, √2)·2^n`, or a short series when `|x|` is within `2^-20` of one and `|y|`
is huge), the product with `y` split the same way, and `2` raised to that
product by a polynomial and an exponent shift; the polynomial's correction term
is `(z·t1) / ((t1 - 2) - (w + z·w))`, the error `w + z·w` taken off the divisor.
Every step is one double operation in a fixed order, so the result agrees to the
last bit with that computation; it is within one unit in the last place of `x^y`,
but not always the nearest double (`2^-0.5` is `0.7071067811865475`).

The special cases are those of the arithmetic the service runs on: anything to
the power zero is one; a NaN gives NaN; `(±1)^(±∞)` is NaN; `y = ±1`, `y = 2` and
`y = 1/2` (for `x ≥ 0`, the square root) are exact; a negative `x` to a non-integer
power is NaN, and to an odd power is negative.
-/

namespace LaneGate.Decimal

/-- The lower 32 bits of a double. -/
def lowWord (x : Float) : Nat := (x.toBits &&& 0xFFFFFFFF).toNat

/-- A double with its lower 32 bits cleared. -/
def clearLow (x : Float) : Float := Float.ofBits (x.toBits &&& 0xFFFFFFFF00000000)

/-- The double whose upper 32 bits are `h` and lower bits zero. -/
def ofHighWord (h : Nat) : Float := Float.ofBits (h.toUInt64 <<< 32)

/-- `2^53`. -/
def two53 : Float := Float.ofBits 0x4340000000000000
/-- `2^-54`. -/
def twoMinus54 : Float := Float.ofBits 0x3C90000000000000
/-- A huge number, squared to overflow. -/
def huge : Float := 1.0e300
/-- A tiny number, squared to underflow. -/
def tiny : Float := 1.0e-300
/-- `log2 1.5`, upper part. -/
def dpHigh : Float := Float.ofBits 0x3FE2B80340000000
/-- `log2 1.5`, lower part. -/
def dpLow : Float := Float.ofBits 0x3E4CFDEB43CFD006
/-- Logarithm coefficient 1. -/
def powL1 : Float := Float.ofBits 0x3FE3333333333303
/-- Logarithm coefficient 2. -/
def powL2 : Float := Float.ofBits 0x3FDB6DB6DB6FABFF
/-- Logarithm coefficient 3. -/
def powL3 : Float := Float.ofBits 0x3FD55555518F264D
/-- Logarithm coefficient 4. -/
def powL4 : Float := Float.ofBits 0x3FD17460A91D4101
/-- Logarithm coefficient 5. -/
def powL5 : Float := Float.ofBits 0x3FCD864A93C9DB65
/-- Logarithm coefficient 6. -/
def powL6 : Float := Float.ofBits 0x3FCA7E284A454EEF
/-- Exponential coefficient 1. -/
def powP1 : Float := Float.ofBits 0x3FC555555555553E
/-- Exponential coefficient 2. -/
def powP2 : Float := Float.ofBits 0xBF66C16C16BEBD93
/-- Exponential coefficient 3. -/
def powP3 : Float := Float.ofBits 0x3F11566AAF25DE2C
/-- Exponential coefficient 4. -/
def powP4 : Float := Float.ofBits 0xBEBBBD41C5D26BF1
/-- Exponential coefficient 5. -/
def powP5 : Float := Float.ofBits 0x3E66376972BEA4D0
/-- `ln 2`. -/
def ln2 : Float := Float.ofBits 0x3FE62E42FEFA39EF
/-- `ln 2`, upper part. -/
def ln2High : Float := Float.ofBits 0x3FE62E4300000000
/-- `ln 2`, lower part. -/
def ln2Low : Float := Float.ofBits 0xBE205C610CA86C39
/-- How far past `1024` a product may round and still overflow. -/
def overflowTail : Float := 8.0085662595372944372e-17
/-- `2 / (3 ln 2)`. -/
def cp : Float := Float.ofBits 0x3FEEC709DC3A03FD
/-- `2 / (3 ln 2)`, upper part. -/
def cpHigh : Float := Float.ofBits 0x3FEEC709E0000000
/-- `2 / (3 ln 2)`, lower part. -/
def cpLow : Float := Float.ofBits 0xBE3E2FE0145B01F5
/-- `1 / ln 2`. -/
def invLn2 : Float := Float.ofBits 0x3FF71547652B82FE
/-- `1 / ln 2`, upper 24 bits. -/
def invLn2High : Float := Float.ofBits 0x3FF7154760000000
/-- `1 / ln 2`, lower part. -/
def invLn2Low : Float := Float.ofBits 0x3E54AE0BF85DDF44

/-- How `y` stands as a power of a negative number: 0 when it is not an integer,
1 when it is an odd one and 2 when an even one (from its words `iy`, `ly`, sign
dropped). -/
def integerKind (iy ly : Nat) : Nat :=
  if iy ≥ 0x43400000 then 2
  else if iy ≥ 0x3ff00000 then
    let k := (iy >>> 20) - 0x3ff
    if k > 20 then
      let j := ly >>> (52 - k)
      if (j <<< (52 - k)) == ly then 2 - (j &&& 1) else 0
    else if ly == 0 then
      let j := iy >>> (20 - k)
      if (j <<< (20 - k)) == iy then 2 - (j &&& 1) else 0
    else 0
  else 0

/-- `log2 |x|` as a pair of doubles, for `|x|` far from one or `|y|` not huge;
`ix` is the upper word of `|x|`. -/
def log2Pair (ax : Float) (ix : Nat) : Float × Float :=
  let (ax, ix, n) : Float × Nat × Int :=
    if ix < 0x00100000 then
      let ax := ax * two53
      (ax, highWord ax, -53)
    else (ax, ix, 0)
  let n := n + ((ix >>> 20 : Nat) : Int) - 0x3ff
  let j := ix &&& 0x000fffff
  let ix := j ||| 0x3ff00000
  let (k, n, ix) : Nat × Int × Nat :=
    if j ≤ 0x3988E then (0, n, ix)
    else if j < 0xBB67A then (1, n, ix)
    else (0, n + 1, ix - 0x00100000)
  let ax := withHighWord ax ix
  let bp : Float := if k = 1 then 1.5 else 1.0
  let dh : Float := if k = 1 then dpHigh else 0.0
  let dl : Float := if k = 1 then dpLow else 0.0
  let u := ax - bp
  let v := 1.0 / (ax + bp)
  let ss := u * v
  let sh := clearLow ss
  let th := ofHighWord (((ix >>> 1) ||| 0x20000000) + 0x00080000 + (k <<< 18))
  let tl := ax - (th - bp)
  let sl := v * ((u - sh * th) - sh * tl)
  let s2 := ss * ss
  let r := s2 * s2 * (powL1 + s2 * (powL2 + s2 * (powL3 + s2 * (powL4 + s2 * (powL5 + s2 * powL6)))))
  let r := r + sl * (sh + ss)
  let s2 := sh * sh
  let th := clearLow (3.0 + s2 + r)
  let tl := r - ((th - 3.0) - s2)
  let u := sh * th
  let v := sl * th + tl * ss
  let ph := clearLow (u + v)
  let pl := v - (ph - u)
  let zh := cpHigh * ph
  let zl := cpLow * ph + pl * cp + dl
  let t := Float.ofInt n
  let t1 := clearLow (((zh + zl) + dh) + t)
  let t2 := zl - (((t1 - t) - dh) - zh)
  (t1, t2)

/-- `z · 2^n` for a `z` near one whose result is below the normal range: scaled
exactly into range and then rounded once. -/
def scaleDown (z : Float) (n : Int) : Float :=
  let k : Int := ((highWord z >>> 20) &&& 0x7ff : Nat) + n
  if k ≤ -54 then tiny * tiny
  else withHighWord z (((highWord z &&& 0x800fffff : Nat) : Int) + (k + 54) * 0x100000).toNat * twoMinus54

/-- `2^(ph + pl)` times the sign `s`, for a product that neither overflows nor
underflows; `j` is the upper word of `ph + pl`. -/
def exp2Pair (s ph pl : Float) (j : Nat) : Float :=
  let negative := j ≥ 0x80000000
  let i := j &&& 0x7fffffff
  let (n, ph) : Int × Float :=
    if i > 0x3fe00000 then
      let k : Int := ((i >>> 20 : Nat) : Int) - 0x3ff
      let m := (j + (0x00100000 >>> (k + 1).toNat)) % 0x100000000
      let k := (((m &&& 0x7fffffff) >>> 20 : Nat) : Int) - 0x3ff
      let t := ofHighWord (m &&& (0xFFFFFFFF ^^^ (0x000fffff >>> k.toNat)))
      let n : Int := (((m &&& 0x000fffff) ||| 0x00100000) >>> (20 - k).toNat : Nat)
      (if negative then -n else n, ph - t)
    else (0, ph)
  let t := clearLow (pl + ph)
  let u := t * ln2High
  let v := (pl - (t - ph)) * ln2 + t * ln2Low
  let z := u + v
  let w := v - (z - u)
  let t := z * z
  let t1 := z - t * (powP1 + t * (powP2 + t * (powP3 + t * (powP4 + t * powP5))))
  let r := (z * t1) / ((t1 - 2.0) - (w + z * w))
  let z := 1.0 - (r - z)
  let raised : Int := (highWord z : Int) + n * 0x100000
  if raised < 0x100000 then s * scaleDown z n
  else s * withHighWord z raised.toNat

/-- `x` to the power `y`. -/
def power (x y : Float) : Float :=
  let hx := highWord x
  let lx := lowWord x
  let hy := highWord y
  let ly := lowWord y
  let xNeg := hx ≥ 0x80000000
  let yNeg := hy ≥ 0x80000000
  let ix := hx &&& 0x7fffffff
  let iy := hy &&& 0x7fffffff
  if (iy ||| ly) == 0 then 1.0
  else if ix > 0x7ff00000 || (ix == 0x7ff00000 && lx != 0) ||
      iy > 0x7ff00000 || (iy == 0x7ff00000 && ly != 0) then x + y
  else
  let yisint := if xNeg then integerKind iy ly else 0
  if ly == 0 && iy == 0x7ff00000 then
    if ix == 0x3ff00000 && lx == 0 then y - y
    else if ix ≥ 0x3ff00000 then (if yNeg then 0.0 else y)
    else (if yNeg then -y else 0.0)
  else if ly == 0 && iy == 0x3ff00000 then (if yNeg then 1.0 / x else x)
  else if ly == 0 && hy == 0x40000000 then x * x
  else if ly == 0 && hy == 0x3fe00000 && !xNeg then x.sqrt
  else
  let ax := x.abs
  if lx == 0 && (ix == 0x7ff00000 || ix == 0 || ix == 0x3ff00000) then
    let z := if yNeg then 1.0 / ax else ax
    if xNeg then
      if ix == 0x3ff00000 && yisint == 0 then (z - z) / (z - z)
      else if yisint == 1 then -z
      else z
    else z
  else if xNeg && yisint == 0 then (x - x) / (x - x)
  else
  let s : Float := if xNeg && yisint == 1 then -1.0 else 1.0
  let pair : (Float × Float) ⊕ Float :=
    if iy > 0x41e00000 then
      if iy > 0x43f00000 && ix ≤ 0x3fefffff then .inr (if yNeg then huge * huge else tiny * tiny)
      else if iy > 0x43f00000 && ix ≥ 0x3ff00000 then .inr (if yNeg then tiny * tiny else huge * huge)
      else if ix < 0x3fefffff then .inr (if yNeg then s * huge * huge else s * tiny * tiny)
      else if ix > 0x3ff00000 then .inr (if yNeg then s * tiny * tiny else s * huge * huge)
      else
        let t := ax - 1.0
        let w := (t * t) * (0.5 - t * (third - t * 0.25))
        let u := invLn2High * t
        let v := t * invLn2Low - w * invLn2
        let t1 := clearLow (u + v)
        .inl (t1, v - (t1 - u))
    else .inl (log2Pair ax ix)
  match pair with
  | .inr r => r
  | .inl (t1, t2) =>
    let y1 := clearLow y
    let pl := (y - y1) * t1 + y * t2
    let ph := y1 * t1
    let z := pl + ph
    let j := highWord z
    let i := lowWord z
    if j < 0x80000000 && j ≥ 0x40900000 then
      if j != 0x40900000 || i != 0 then s * huge * huge
      else if pl + overflowTail > z - ph then s * huge * huge
      else exp2Pair s ph pl j
    else if (j &&& 0x7fffffff) ≥ 0x4090cc00 then
      if j != 0xc090cc00 || i != 0 then s * tiny * tiny
      else if pl ≤ z - ph then s * tiny * tiny
      else exp2Pair s ph pl j
    else exp2Pair s ph pl j

end LaneGate.Decimal
