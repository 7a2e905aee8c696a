import LaneGate.Decimal.Shortest
import LaneGate.Decimal.Read
import LaneGate.Proofs.Decimal.Fields
import Mathlib
/-!
# Scaled integers as rationals

The decimal code of the service never leaves the integers: `cmpScaled a p b e`
compares `a · 10^p` with `b · 2^e` and `floorScaled b e p` divides `b · 2^e` by
`10^p`, each after multiplying out the negative powers, and `quotientAt` divides
and compares the rest with one half. Here each of them is read as the rational
statement it stands for, so that the decimal algorithms can be argued about on `ℚ`.

A decimal is accepted for a double exactly when it lies in the double's rounding
interval (`accepts_iff`, with `Rounding.Holds` the interval as a property of a
rational).
-/

namespace LaneGate.Decimal

/-! ## Comparisons -/

/-- Two comparisons agree when their strict orders do. -/
theorem compare_congr {α β : Type*} [LinearOrder α] [LinearOrder β] {x y : α} {x' y' : β}
    (hlt : x < y ↔ x' < y') (hgt : y < x ↔ y' < x') : compare x y = compare x' y' := by
  rcases lt_trichotomy x y with h | h | h
  · rw [compare_lt_iff_lt.2 h, compare_lt_iff_lt.2 (hlt.1 h)]
  · have h₁ : ¬ x' < y' := fun h' => (hlt.2 h').ne h
    have h₂ : ¬ y' < x' := fun h' => (hgt.2 h').ne h.symm
    rw [compare_eq_iff_eq.2 h, compare_eq_iff_eq.2 (le_antisymm (not_lt.1 h₂) (not_lt.1 h₁))]
  · rw [compare_gt_iff_gt.2 h, compare_gt_iff_gt.2 (hgt.1 h)]

/-- Multiplying by the power with the negative part of the exponent makes it whole. -/
theorem zpow_mul_pow_toNat_neg {x : ℚ} (hx : x ≠ 0) (z : ℤ) :
    x ^ z * x ^ (-z).toNat = x ^ z.toNat := by
  rw [← zpow_natCast, ← zpow_natCast, ← zpow_add₀ hx]
  congr 1
  omega

/-- `cmpScaled a p b e` compares `a · 10^p` with `b · 2^e`. -/
theorem cmpScaled_eq (a : Nat) (p : Int) (b : Nat) (e : Int) :
    cmpScaled a p b e = compare ((a : ℚ) * 10 ^ p) ((b : ℚ) * 2 ^ e) := by
  have hc : (0 : ℚ) < 10 ^ (-p).toNat * 2 ^ (-e).toNat := by positivity
  have hl : ((a * Nat.pow 10 p.toNat * Nat.pow 2 (-e).toNat : Nat) : ℚ) =
      (a : ℚ) * 10 ^ p * (10 ^ (-p).toNat * 2 ^ (-e).toNat) := by
    simp only [Nat.pow_eq]
    push_cast
    rw [← zpow_mul_pow_toNat_neg (by norm_num : (10 : ℚ) ≠ 0) p]
    ring
  have hr : ((b * Nat.pow 2 e.toNat * Nat.pow 10 (-p).toNat : Nat) : ℚ) =
      (b : ℚ) * 2 ^ e * (10 ^ (-p).toNat * 2 ^ (-e).toNat) := by
    simp only [Nat.pow_eq]
    push_cast
    rw [← zpow_mul_pow_toNat_neg (by norm_num : (2 : ℚ) ≠ 0) e]
    ring
  unfold cmpScaled
  refine compare_congr ?_ ?_
  · rw [← Nat.cast_lt (α := ℚ), hl, hr, mul_lt_mul_iff_of_pos_right hc]
  · rw [← Nat.cast_lt (α := ℚ), hl, hr, mul_lt_mul_iff_of_pos_right hc]

/-- `floorScaled b e p` is `⌊b · 2^e / 10^p⌋`. -/
theorem floorScaled_eq (b : Nat) (e p : Int) :
    floorScaled b e p = ⌊(b : ℚ) * 2 ^ e / 10 ^ p⌋₊ := by
  unfold floorScaled
  rw [← Nat.floor_div_eq_div (K := ℚ)]
  congr 1
  simp only [Nat.pow_eq]
  push_cast
  rw [div_eq_div_iff (by positivity) (by positivity),
    ← zpow_mul_pow_toNat_neg (by norm_num : (2 : ℚ) ≠ 0) e,
    ← zpow_mul_pow_toNat_neg (by norm_num : (10 : ℚ) ≠ 0) p]
  ring

/-- The quotient `quotientAt` takes: `num / den` in units of `2^e`. -/
theorem quotient_eq_div (num den : Nat) (e : Int) :
    ((num * Nat.pow 2 (-e).toNat : Nat) : ℚ) / ((den * Nat.pow 2 e.toNat : Nat) : ℚ) =
      (num : ℚ) / den / 2 ^ e := by
  simp only [Nat.pow_eq]
  push_cast
  rw [div_div, ← zpow_mul_pow_toNat_neg (by norm_num : (2 : ℚ) ≠ 0) e]
  rcases Nat.eq_zero_or_pos den with h | h
  · simp [h]
  · field_simp

/-- The whole part of `quotientAt`. -/
theorem quotientAt_fst (num den : Nat) (e : Int) :
    (quotientAt num den e).1 = ⌊(num : ℚ) / den / 2 ^ e⌋₊ := by
  rw [← quotient_eq_div, Nat.floor_div_eq_div]
  rfl

/-- The rest of `quotientAt`, compared with one half. -/
theorem quotientAt_snd {num den : Nat} (hden : 0 < den) (e : Int) :
    (quotientAt num den e).2 =
      compare ((num : ℚ) / den / 2 ^ e - ⌊(num : ℚ) / den / 2 ^ e⌋₊) (1 / 2) := by
  rw [← quotient_eq_div, Nat.floor_div_eq_div]
  unfold quotientAt
  dsimp only
  generalize num * Nat.pow 2 (-e).toNat = a
  generalize hb : den * Nat.pow 2 e.toNat = b
  have hb0 : (0 : ℚ) < b := by
    subst hb
    rw [Nat.cast_pos]
    exact Nat.mul_pos hden (Nat.two_pow_pos _)
  have hrest : ((2 * (a % b) : Nat) : ℚ) = 2 * b * ((a : ℚ) / b - (a / b : Nat)) := by
    have h := Nat.mod_add_div a b
    have hq : ((a % b : Nat) : ℚ) = a - b * (a / b : Nat) := by
      rw [eq_sub_iff_add_eq, ← Nat.cast_mul, ← Nat.cast_add, h]
    rw [Nat.cast_mul, hq]
    field_simp
    ring
  refine compare_congr ?_ ?_
  · rw [← Nat.cast_lt (α := ℚ), hrest]
    constructor <;> intro h <;> nlinarith
  · rw [← Nat.cast_lt (α := ℚ), hrest]
    constructor <;> intro h <;> nlinarith

/-! ## Rounding intervals -/

/-- The rational `w` lies in the rounding interval `r` of a double of exponent `e`:
strictly inside, or on an end when the ends belong to it. -/
def Rounding.Holds (r : Rounding) (e : Int) (w : ℚ) : Prop :=
  ((r.low : ℚ) * 2 ^ (e - 2) < w ∨ r.closed = true ∧ w = (r.low : ℚ) * 2 ^ (e - 2)) ∧
    (w < (r.high : ℚ) * 2 ^ (e - 2) ∨ r.closed = true ∧ w = (r.high : ℚ) * 2 ^ (e - 2))

/-- The low end of a double's rounding interval, in quarters of its last place:
half a place below, or a quarter at a power of two above the least normal. -/
theorem low_of {m : Nat} (hm : 0 < m) (e : Int) :
    ((Rounding.of m e).low : ℚ) = 4 * m - ((if m = Nat.pow 2 fracBits ∧ e > -1074 then 1 else 2 : Nat) : ℚ) := by
  show ((4 * m - (if m = Nat.pow 2 fracBits ∧ e > -1074 then 1 else 2) : Nat) : ℚ) = _
  rw [Nat.cast_sub (by split <;> omega)]
  push_cast
  ring

/-- The high end of a double's rounding interval: half a place above. -/
theorem high_of (m : Nat) (e : Int) : ((Rounding.of m e).high : ℚ) = 4 * m + 2 := by
  show ((4 * m + 2 : Nat) : ℚ) = _
  push_cast
  ring

/-- The ends belong to the interval exactly for an even mantissa. -/
theorem closed_of (m : Nat) (e : Int) : (Rounding.of m e).closed = true ↔ m % 2 = 0 := by
  show (m % 2 == 0) = true ↔ _
  exact beq_iff_eq

/-- A decimal is accepted exactly when it lies in the rounding interval. -/
theorem accepts_iff (r : Rounding) (e : Int) (s : Nat) (p : Int) :
    r.accepts e s p = true ↔ r.Holds e (s * 10 ^ p) := by
  simp only [Rounding.accepts, cmpScaled_eq, Bool.and_eq_true, Bool.or_eq_true, beq_iff_eq,
    compare_gt_iff_gt, compare_eq_iff_eq, compare_lt_iff_lt, Rounding.Holds]

end LaneGate.Decimal
