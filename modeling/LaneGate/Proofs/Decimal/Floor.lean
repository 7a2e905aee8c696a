import LaneGate.Proofs.Decimal.Rounding
import LaneGate.Decimal.Format
/-!
# Floors of doubles

`floorOf` gives the greatest integer not above a double as a double. From `2^52` on a
double has no fraction, and `floorOf` returns it as it is; below, the floor is read off
the bits (`floorPart`: the whole part, one less for a negative double with a fraction)
and made a double, which is exact there. Main statement, `integral_floorOf`: for every
finite double `x`, `floorOf x` is a finite double holding the integer `⌊x⌋`. So is
`maxOf 1` of it, holding `max 1 ⌊x⌋` (`integral_maxOf_one`), the clamp the store puts on
row counts.

The steps: the floor the bits give is the floor of the value (`floorPart_eq_floor`),
past `2^52` a double is an integer (`integral_of_two_pow_le`), and below `2^53` an
integer made a double is exact (`integral_ofInt`). The magnitude `x.abs` that the size
test reads has the rank `|rank x|` (`rank_abs`).
-/

namespace LaneGate.Decimal

open Float.Model UnpackedFloat

/-- The magnitude of a finite double: the same count of least subnormals, positive. -/
theorem rank_abs {x : Float} (hx : isFinite x = true) :
    isFinite x.abs = true ∧ rank x.abs = |rank x| := by
  have hu : x.abs.toModel.unpack = UnpackedFloat.unpack binary64 (UnpackedFloat.pack binary64 x.toModel.unpack.abs) := rfl
  rcases unpack_of_isFinite hx with ⟨s, h⟩ | ⟨s, m, e, hm, h, h53, he, he', hfull⟩
  · have hz : x.abs.toModel.unpack = .zero .positive := by
      rw [hu, h]
      exact unpack_pack_zero .positive
    refine ⟨isFinite_of_unpack_zero hz, ?_⟩
    rw [rank, rank, hz, h]
    rfl
  · have hz : x.abs.toModel.unpack = .finite .positive m e hm := by
      rw [hu, h]
      exact unpack_pack_finite .positive hm h53 he he' hfull
    refine ⟨isFinite_of_unpack hz, ?_⟩
    rw [rank, rank, hz, h]
    cases s <;> simp [rankOf, Sign.apply]

theorem neg_ofFloat (x : Float) : (Binary.ofFloat x).neg = signBit x := by
  unfold Binary.ofFloat signBit
  split
  next heq => split <;> rw [heq]

/-- A double whose count of least subnormals is a multiple of `2^1074` passes the whole
test. -/
theorem isWhole_of_dvd {x : Float}
    (h : 2 ^ 1074 ∣ (Binary.ofFloat x).mant * 2 ^ ((Binary.ofFloat x).exp + 1074).toNat) :
    isWhole x = true := by
  have he := exp_ofFloat x
  unfold isWhole
  generalize Binary.ofFloat x = b at h he ⊢
  obtain ⟨neg, m, e⟩ := b
  simp only [Nat.pow_eq, beq_iff_eq] at h he ⊢
  rcases le_or_gt 0 e with hpos | hneg
  · rw [show (-e).toNat = 0 by omega, Nat.pow_zero, Nat.mod_one]
  · -- the factor `2^(e + 1074)` of both sides cancels
    have hsplit : (2 : Nat) ^ 1074 = 2 ^ (-e).toNat * 2 ^ (e + 1074).toNat := by
      rw [← Nat.pow_add]
      congr 1
      omega
    rw [hsplit] at h
    exact Nat.mod_eq_zero_of_dvd (Nat.dvd_of_mul_dvd_mul_right (by positivity) h)

/-- The floor the bits give is the floor of the value: the whole part, one less for a
double below zero with a fraction. -/
theorem floorPart_eq_floor {x : Float} (hx : isFinite x = true) : floorPart x = ⌊value x⌋ := by
  have hw : isWhole x = true ↔
      2 ^ 1074 ∣ (Binary.ofFloat x).mant * 2 ^ ((Binary.ofFloat x).exp + 1074).toNat :=
    ⟨dvd_of_isWhole, isWhole_of_dvd⟩
  unfold floorPart
  rw [floor_value, rank_eq hx, wholePart_eq, ← neg_ofFloat]
  generalize hN : (Binary.ofFloat x).mant * 2 ^ ((Binary.ofFloat x).exp + 1074).toNat = N at hw ⊢
  have hP : (0 : Int) < ((2 ^ 1074 : Nat) : Int) := by positivity
  cases (Binary.ofFloat x).neg
  · simp only [Bool.false_and, if_false, signOf, Bool.false_eq_true, Sign.apply]
    exact Int.natCast_div N _
  · simp only [Bool.true_and, signOf, if_true, Sign.apply]
    rw [Int.neg_ediv, Int.natCast_div]
    by_cases hd : 2 ^ 1074 ∣ N
    · -- a whole negative double is its own floor
      have hwt : isWhole x = true := hw.2 hd
      have hd' : ((2 ^ 1074 : Nat) : Int) ∣ (N : Int) := Int.natCast_dvd_natCast.2 hd
      rw [hwt, if_pos hd', Bool.not_true, if_neg Bool.false_ne_true, sub_zero]
    · -- a negative fraction goes one further down
      have hwt : isWhole x = false := by
        cases h : isWhole x
        · rfl
        · exact absurd (hw.1 h) hd
      have hd' : ¬ ((2 ^ 1074 : Nat) : Int) ∣ (N : Int) := fun h => hd (Int.natCast_dvd_natCast.1 h)
      rw [hwt, if_neg hd', Int.sign_eq_one_of_pos hP, Bool.not_false, if_pos rfl]

theorem isNaN_of_isFinite {x : Float} (hx : isFinite x = true) : isNaN x = false := by
  unfold isFinite at hx
  unfold isNaN
  simp only [bne_iff_ne, ne_eq] at hx
  simp [hx]

/-- The count of least subnormals of a finite double, by size: `2^1074` times its value. -/
theorem abs_rank_eq {x : Float} (hx : isFinite x = true) :
    |rank x| = (((Binary.ofFloat x).mant * 2 ^ ((Binary.ofFloat x).exp + 1074).toNat : Nat) : Int) := by
  rw [rank_eq hx, apply_signOf]
  split
  · rw [abs_neg, Int.abs_natCast]
  · exact Int.abs_natCast _

/-- From `2^52` on, every finite double is an integer: its exponent is not below zero. -/
theorem integral_of_two_pow_le {x : Float} (hx : isFinite x = true) (h : 2 ^ 52 ≤ |value x|) :
    Integral x ⌊value x⌋ := by
  have habs := abs_rank_eq hx
  generalize hN : (Binary.ofFloat x).mant * 2 ^ ((Binary.ofFloat x).exp + 1074).toNat = N at habs
  have hv : |value x| = (N : ℚ) / 2 ^ 1074 := by
    rw [value, abs_div, abs_of_pos (show (0 : ℚ) < 2 ^ 1074 by positivity), ← Int.cast_abs, habs,
      Int.cast_natCast]
  -- below a zero exponent the value would be below `2^53 · 2^1073 / 2^1074 = 2^52`
  have he : 0 ≤ (Binary.ofFloat x).exp := by
    by_contra hneg
    have hN' : N < 2 ^ 53 * 2 ^ 1073 := by
      rw [← hN]
      rcases Nat.eq_zero_or_pos (Binary.ofFloat x).mant with h0 | h0
      · rw [h0, Nat.zero_mul]
        positivity
      · obtain ⟨-, h53, -⟩ := valid_ofFloat hx (by omega)
        have hk : 2 ^ ((Binary.ofFloat x).exp + 1074).toNat ≤ 2 ^ 1073 :=
          pow_le_pow_right₀ (by norm_num) (by omega)
        exact Nat.mul_lt_mul_of_lt_of_le h53 hk (pow_pos two_pos _)
    have hNq : (N : ℚ) < 2 ^ 52 * 2 ^ 1074 := by
      rw [show (2 : ℚ) ^ 52 * 2 ^ 1074 = 2 ^ 53 * 2 ^ 1073 by rw [← pow_add, ← pow_add]]
      exact_mod_cast hN'
    rw [hv, le_div_iff₀ (by positivity)] at h
    exact absurd h (not_le.2 hNq)
  have hd : 2 ^ 1074 ∣ N := by
    rw [← hN]
    exact Dvd.dvd.mul_left (pow_dvd_pow 2 (by omega)) _
  have hdr : (2 : Int) ^ 1074 ∣ rank x := by
    rw [← dvd_abs, habs]
    exact_mod_cast hd
  refine ⟨hx, ?_⟩
  rw [floor_value, Nat.cast_pow, Nat.cast_ofNat, Int.ediv_mul_cancel hdr]

/-- An integer of size below `2^53` made a double is exact. -/
theorem integral_ofInt {z : Int} (hz : z.natAbs < 2 ^ 53) : Integral (Float.ofInt z) z := by
  cases z with
  | ofNat n => exact (Whole.toFloat (n := n) (by simpa using hz)).integral.ofInt
  | negSucc n =>
    have h := (Whole.toFloat (n := n + 1) (by simpa using hz)).integral.neg
    rw [show -((n + 1 : Nat) : Int) = Int.negSucc n from rfl] at h
    exact h.ofInt

/-- The floor of every finite double is a double holding the integer `⌊x⌋`: past `2^52`
the double itself, and below it the floor of the bits, made a double exactly. -/
theorem integral_floorOf {x : Float} (hx : isFinite x = true) : Integral (floorOf x) ⌊value x⌋ := by
  obtain ⟨hafin, hrabs⟩ := rank_abs hx
  have hc : rank (4503599627370496.0 : Float) = 2 ^ 52 * 2 ^ 1074 := by
    rw [rank, show (4503599627370496.0 : Float).toModel.unpack =
      .finite .positive (2 ^ 52) 0 (by decide) from rfl]
    simp only [rankOf, Sign.apply]
    rw [Nat.cast_mul, Nat.cast_pow, Nat.cast_pow]
    rfl
  have hcn : (4503599627370496.0 : Float).isNaN = false := by decide
  have hsize : (x.abs ≥ 4503599627370496.0) ↔ 2 ^ 52 ≤ |value x| := by
    rw [ge_iff_le, le_iff_rank_le hcn (isNaN_eq_false hafin), hc, hrabs, value, abs_div,
      abs_of_pos (by positivity : (0 : ℚ) < 2 ^ 1074), le_div_iff₀ (by positivity), ← Int.cast_abs,
      ← Int.cast_le (R := ℚ), Int.cast_mul, Int.cast_pow, Int.cast_pow, Int.cast_ofNat]
  unfold floorOf
  rw [hx, Bool.not_true, Bool.false_or]
  by_cases hbig : x.abs ≥ 4503599627370496.0
  · rw [if_pos (by simp [hbig])]
    exact integral_of_two_pow_le hx (hsize.1 hbig)
  · by_cases hz : (x == 0) = true
    · rw [if_pos (by simp [hz])]
      have h0 : rank x = 0 := by
        rw [beq_iff_rank_eq (isNaN_eq_false hx) (by decide)] at hz
        rw [hz]
        decide
      refine ⟨hx, ?_⟩
      rw [floor_value, h0, Int.zero_ediv, zero_mul]
    · rw [if_neg (by simp [hbig, hz])]
      have hsmall : |value x| < 2 ^ 52 := not_le.1 fun h => hbig (hsize.2 h)
      rw [floorPart_eq_floor hx]
      refine integral_ofInt ?_
      have h1 := Int.floor_le (value x)
      have h2 := Int.lt_floor_add_one (value x)
      have h3 := abs_lt.1 hsmall
      have hlo : (-(2 ^ 52) : ℚ) - 1 < ⌊value x⌋ := by linarith
      have hhi : (⌊value x⌋ : ℚ) < 2 ^ 52 := by linarith
      have hlo' : -(2 ^ 52 : Int) - 1 < ⌊value x⌋ := by exact_mod_cast hlo
      have hhi' : ⌊value x⌋ < (2 ^ 52 : Int) := by exact_mod_cast hhi
      omega

/-- Clamping an integer at one from below, as `maxOf 1` does with a double holding it. -/
theorem integral_maxOf_one {y : Float} {z : Int} (hy : Integral y z) :
    Integral (maxOf 1 y) (max 1 z) := by
  have h1 : Integral (1 : Float) 1 := Whole.one.integral
  unfold maxOf
  rw [isNaN_of_isFinite h1.finite, isNaN_of_isFinite hy.finite, Bool.or_false, if_neg Bool.false_ne_true]
  by_cases hgt : (1 : Float) > y
  · rw [if_pos hgt, max_eq_left ((hy.lt_iff h1).1 hgt).le]
    exact h1
  · rw [if_neg hgt]
    by_cases hlt : y > 1
    · rw [if_pos hlt, max_eq_right ((h1.lt_iff hy).1 hlt).le]
      exact hy
    · -- neither is above the other: both are one
      have hz : z = 1 := le_antisymm (not_lt.1 fun h => hlt ((h1.lt_iff hy).2 h))
        (not_lt.1 fun h => hgt ((hy.lt_iff h1).2 h))
      rw [if_neg hlt, if_neg (by decide), hz, max_self]
      exact h1

end LaneGate.Decimal
