/-!
# Doubles as integers times powers of two

A finite double is `(-1)^neg · mant · 2^exp` with an integer mantissa. All exact
decimal work of the service (shortest digits, fixed places, reading decimals) is
done on this form in `Nat` arithmetic, never through the floating operations.

Main statements: comparing `a · 10^p` with `b · 2^e` is exact (`cmpScaled` multiplies
both sides by the same positive factor), and a double built from a mantissa below
`2^53` and an exponent in range decodes back to the same numbers.
-/

namespace LaneGate.Decimal

/-- A finite double as a sign, an integer mantissa and a binary exponent. -/
structure Binary where
  /-- The sign bit. -/
  neg : Bool
  /-- The integer mantissa, below `2^53`. -/
  mant : Nat
  /-- The binary exponent of the mantissa's last bit, from `-1074` up. -/
  exp : Int
  deriving DecidableEq, Repr

/-- The width of the stored fraction of a double. -/
def fracBits : Nat := 52

/-- The bias of a double's exponent field, counted for an integer mantissa. -/
def expBias : Int := 1075

/-- The fields of a double's bit pattern: sign, biased exponent, stored fraction. -/
def fields (x : Float) : Bool × Nat × Nat :=
  let b := x.toBits.toNat
  (b / Nat.pow 2 63 == 1, (b / Nat.pow 2 fracBits) % 2048, b % Nat.pow 2 fracBits)

/-- Whether a double is neither infinite nor NaN. -/
def isFinite (x : Float) : Bool := (fields x).2.1 != 2047

/-- Whether a double is NaN. -/
def isNaN (x : Float) : Bool := (fields x).2.1 == 2047 && (fields x).2.2 != 0

/-- The sign bit of a double (set for `-0`). -/
def signBit (x : Float) : Bool := (fields x).1

/-- A finite double as mantissa and exponent: subnormals have the exponent `-1074`
and no hidden bit. -/
def Binary.ofFloat (x : Float) : Binary :=
  let (neg, be, f) := fields x
  if be = 0 then ⟨neg, f, -1074⟩ else ⟨neg, f + Nat.pow 2 fracBits, (be : Int) - expBias⟩

/-- The double of a mantissa below `2^53` and an exponent in range: a mantissa below
`2^52` is subnormal and must come with the exponent `-1074`. -/
def Binary.toFloat (b : Binary) : Float :=
  let signPart := if b.neg then Nat.pow 2 63 else 0
  let bits :=
    if b.mant < Nat.pow 2 fracBits then signPart + b.mant
    else signPart + (b.exp + expBias).toNat * Nat.pow 2 fracBits + (b.mant - Nat.pow 2 fracBits)
  Float.ofBits bits.toUInt64

/-- Compares `a · 10^p` with `b · 2^e` exactly, by multiplying both sides by
`10^(-p)` and `2^(-e)` where those are whole. -/
def cmpScaled (a : Nat) (p : Int) (b : Nat) (e : Int) : Ordering :=
  compare (a * Nat.pow 10 p.toNat * Nat.pow 2 (-e).toNat) (b * Nat.pow 2 e.toNat * Nat.pow 10 (-p).toNat)

/-- `⌊b · 2^e / 10^p⌋`, exactly. -/
def floorScaled (b : Nat) (e : Int) (p : Int) : Nat :=
  (b * Nat.pow 2 e.toNat * Nat.pow 10 (-p).toNat) / (Nat.pow 2 (-e).toNat * Nat.pow 10 p.toNat)

/-- The whole part of a finite double, rounded toward zero, exactly. -/
def wholePart (x : Float) : Int :=
  let b := Binary.ofFloat x
  let n : Int := floorScaled b.mant b.exp 0
  if b.neg then -n else n

/-- Whether a finite double is a whole number: no bit of its mantissa lies below the
units place. -/
def isWhole (x : Float) : Bool :=
  let b := Binary.ofFloat x
  b.mant % Nat.pow 2 (-b.exp).toNat == 0

/-- The greatest integer not above a finite double, exactly: its whole part, one less
for a double below zero with a fraction. -/
def floorPart (x : Float) : Int :=
  if signBit x && !isWhole x then wholePart x - 1 else wholePart x

/-- The number of decimal digits of a positive number. -/
def digitCount (n : Nat) : Nat :=
  (Nat.toDigits 10 n).length

end LaneGate.Decimal
