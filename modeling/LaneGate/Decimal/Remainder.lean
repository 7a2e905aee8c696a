import LaneGate.Decimal.Read
/-!
# The remainder of a division of doubles

`remainder x y` is `x - n · y` for the whole number `n` that brings the result
closest to zero without passing it, so the result keeps the sign of `x` and is
smaller than `y` in size. The result is always a double itself, so it is computed
exactly: both operands are written as integers times one common power of two
(the smaller of their two exponents), and the integer remainder is taken of the
integers.

Main statement: the rebuilt double of a mantissa and exponent keeps the mantissa
below `2^53` (`normalMant_lt`), so every remainder is representable.
-/

namespace LaneGate.Decimal

/-- How far a nonzero mantissa below `2^53` can move left: until its top bit is bit
52, and no further than the exponent allows (a subnormal stays subnormal). -/
def leftShift (m : Nat) (e : Int) : Nat :=
  min (fracBits - Nat.log2 m) (e + 1074).toNat

/-- The mantissa of `m · 2^e` rebuilt with its top bit at bit 52 where it can be. -/
def normalMant (m : Nat) (e : Int) : Nat :=
  if m = 0 then 0 else m * Nat.pow 2 (leftShift m e)

/-- The exponent that goes with `normalMant`. -/
def normalExp (m : Nat) (e : Int) : Int :=
  if m = 0 then -1074 else e - leftShift m e

/-- The double `±m · 2^e` of a mantissa below `2^53` and an exponent from `-1074`
up. -/
def ofScaled (neg : Bool) (m : Nat) (e : Int) : Float :=
  (Binary.mk neg (normalMant m e) (normalExp m e)).toFloat

/-- The remainder of `x` divided by `y`, with the sign of `x`: not a number when
`x` is not finite, `y` is not a number or `y` is zero; `x` itself when `y` is
infinite or `x` is zero. -/
def remainder (x y : Float) : Float :=
  if isNaN y || !isFinite x || y == 0 then notANumber
  else if !isFinite y || x == 0 then x
  else
    let a := Binary.ofFloat x
    let b := Binary.ofFloat y
    let e := min a.exp b.exp
    let r := (a.mant * Nat.pow 2 (a.exp - e).toNat) % (b.mant * Nat.pow 2 (b.exp - e).toNat)
    ofScaled a.neg r e

theorem normalMant_lt (m : Nat) (e : Int) (h : m < Nat.pow 2 53) :
    normalMant m e < Nat.pow 2 53 := by
  unfold normalMant
  split
  · exact Nat.pow_pos (by decide)
  · rename_i hm
    have hlog : Nat.log2 m < 53 := (Nat.log2_lt hm).2 h
    have hlt : m < Nat.pow 2 (Nat.log2 m + 1) := Nat.lt_log2_self
    have hk : leftShift m e ≤ 52 - Nat.log2 m := Nat.min_le_left _ _
    calc m * Nat.pow 2 (leftShift m e)
        < Nat.pow 2 (Nat.log2 m + 1) * Nat.pow 2 (leftShift m e) :=
          Nat.mul_lt_mul_of_pos_right hlt (Nat.pow_pos (by decide))
      _ = Nat.pow 2 (Nat.log2 m + 1 + leftShift m e) := (Nat.pow_add 2 _ _).symm
      _ ≤ Nat.pow 2 53 := Nat.pow_le_pow_right (by decide) (by omega)

end LaneGate.Decimal
