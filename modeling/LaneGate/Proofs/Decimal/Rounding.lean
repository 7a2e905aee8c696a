import LaneGate.Proofs.Decimal.Integers
/-!
# One rounding

Every arithmetic operation of the model computes its exact result as a mantissa `m` at an
exponent `e` (with, for a quotient or a root, an accuracy saying how far the exact value
lies past `m · 2^e`), and rounds it once (`roundWithAccuracy`). The rounding moves the
mantissa to the target exponent `T`, the least exponent that leaves it 53 bits, and rounds
what was dropped. So the result is `r · 2^T` with `r` the quotient `m / 2^(T - e)` or one
more, and it is off the exact value by less than `2^T` (`roundWithAccuracy_error`).

When the exact value is at most `2^N`, the target exponent is at most `N - 52`, so one
rounding is off by at most `2^(N - 52)`. Put relative to the exact value `w`, an
operation on finite doubles whose exact result is at most `2^1022` in size lands on a
finite double within `|w| / 2^50` of it, or within `2^-1073` near zero, on the side of
zero `w` is on (`Rounded`). This is the one fact about the arithmetic that the bounds on
computed logarithms and relevance scores are built from.
-/

namespace LaneGate.Decimal

open Float.Model UnpackedFloat

/-! ### Values of unpacked numbers -/

/-- The value of an unpacked number, as `value` reads it off a double: a finite value
`±m · 2^e`, zero for the rest. -/
def valueOf (u : UnpackedFloat) : ℚ := (rankOf u : ℚ) / 2 ^ 1074

theorem value_eq_valueOf (x : Float) : value x = valueOf x.toModel.unpack := rfl

theorem valueOf_zero (s : Sign) : valueOf (.zero s) = 0 := by
  simp [valueOf, rankOf]

theorem zpow_toNat_add {e : Int} (he : -1074 ≤ e) :
    ((2 : ℚ) ^ (e + 1074).toNat) = 2 ^ e * 2 ^ 1074 := by
  rw [← zpow_natCast, Int.toNat_of_nonneg (by omega), zpow_add₀ two_ne_zero]
  norm_cast

theorem valueOf_finite (s : Sign) {m : Nat} {e : Int} (h : 0 < m) (he : -1074 ≤ e) :
    valueOf (.finite s m e h) = (s.apply 1 : ℚ) * (m * 2 ^ e) := by
  have hpow := zpow_toNat_add he
  unfold valueOf rankOf
  cases s <;> simp only [Sign.apply] <;> push_cast <;> rw [hpow] <;> field_simp

/-- A number that is not an infinity or not-a-number: a zero or a finite value. -/
def Bounded (u : UnpackedFloat) : Prop := (∃ t, u = .zero t) ∨ ∃ t m e h, u = .finite t m e h

theorem isFinite_of_bounded {x : Float} (h : Bounded x.toModel.unpack) : isFinite x = true := by
  rcases h with ⟨t, hu⟩ | ⟨t, m, e, hm, hu⟩
  · exact isFinite_of_unpack_zero hu
  · exact isFinite_of_unpack hu

/-! ### The first shift -/

theorem mantissa_ofMantissaAndAccuracy (m : Nat) (acc : Accuracy) :
    (ExtendedMantissa.ofMantissaAndAccuracy m acc).mantissa = m := by
  rcases acc with _ | (_ | _ | _) <;> rfl

/-- The target exponent of a mantissa at an exponent: 53 bits, and never below the
least. -/
def targetOf (m : Nat) (e : Int) : Int := binary64.targetExponent (totalExponent m e)

theorem targetOf_eq (m : Nat) (e : Int) : targetOf m e = max ((m.log2 : Int) + e - 52) (-1074) := by
  rw [targetOf, targetExponent_eq, totalExponent]
  omega

/-- Room to round: the mantissa has 53 bits or more, or it already sits at or below the
least exponent, so rounding only drops bits. -/
def Room (m : Nat) (e : Int) : Prop := 52 ≤ m.log2 ∨ e ≤ -1074

theorem Room.le_target {m : Nat} {e : Int} (h : Room m e) : e ≤ targetOf m e := by
  rw [targetOf_eq]
  rcases h with h | h <;> omega

/-- The first shift moves the mantissa to the target exponent, keeping the quotient. -/
theorem first_shift_eq (m : Nat) {e : Int} (h : Room m e) (acc : Accuracy) :
    (shiftToTargetExponent binary64 m e acc).1.mantissa = m / 2 ^ (targetOf m e - e).toNat ∧
      (shiftToTargetExponent binary64 m e acc).2 = targetOf m e := by
  have hle := h.le_target
  refine ⟨?_, ?_⟩
  · simp only [shiftToTargetExponent, shiftToExponent, mantissa_shiftRight,
      mantissa_ofMantissaAndAccuracy, targetOf]
  · change e + (targetOf m e - e).toNat = targetOf m e
    omega

/-- The quotient at the target exponent has at most 53 bits, and exactly 53 unless the
target is the least exponent. -/
theorem quotient_bounds (m : Nat) {e : Int} (h : Room m e) :
    m / 2 ^ (targetOf m e - e).toNat < 2 ^ 53 ∧
      (-1074 < targetOf m e → 2 ^ 52 ≤ m / 2 ^ (targetOf m e - e).toNat) := by
  rw [targetOf_eq]
  unfold Room at h
  refine ⟨?_, fun hT => ?_⟩
  · refine (Nat.div_lt_iff_lt_mul (Nat.two_pow_pos _)).2 ?_
    rw [← Nat.pow_add]
    exact lt_two_pow_of_log2 (by omega)
  · have hm : 0 < m := Nat.pos_of_ne_zero fun h0 => by simp [h0] at hT h; omega
    obtain ⟨j, hj⟩ : ∃ j : Nat, (max ((m.log2 : Int) + e - 52) (-1074) - e).toNat = j := ⟨_, rfl⟩
    rw [hj]
    exact (div_pow_bounds hm (by omega)).1

/-! ### The second shift -/

/-- A rounded quotient of at most `2^53` at an exponent no lower than the least: a full
quotient of `2^53` carries into the next exponent, any other stays. -/
theorem second_shift_eq {r : Nat} (hr : r ≤ 2 ^ 53) {T : Int} (hT : -1074 ≤ T) :
    (shiftToTargetExponent binary64 r T .exact).1.mantissa = (if r = 2 ^ 53 then 2 ^ 52 else r) ∧
      (shiftToTargetExponent binary64 r T .exact).2 = (if r = 2 ^ 53 then T + 1 else T) := by
  rw [shiftToTarget_mantissa, shiftToTarget_exponent, targetExponent_eq]
  simp only [totalExponent]
  by_cases hfull : r = 2 ^ 53
  · subst hfull
    rw [Nat.log2_two_pow]
    have hj : (max ((53 : Nat) + 1 + T - 53) (-1074) - T).toNat = 1 := by omega
    rw [hj, if_pos rfl, if_pos rfl]
    exact ⟨rfl, by omega⟩
  · have hlog : r.log2 < 53 := by
      rcases Nat.eq_zero_or_pos r with h0 | hpos
      · simp [h0]
      · exact log2_lt_of_lt hpos (by omega)
    have hj : (max ((r.log2 : Int) + 1 + T - 53) (-1074) - T).toNat = 0 := by omega
    rw [hj, if_neg hfull, if_neg hfull]
    exact ⟨by simp, by omega⟩

/-! ### The rounded value -/

/-- The quotient at the target exponent, rounded as the accuracy says. -/
def roundedOf (m : Nat) (e : Int) (acc : Accuracy) : Nat :=
  (shiftToTargetExponent binary64 m e acc).1.roundedMantissa

theorem roundedOf_bounds (m : Nat) {e : Int} (h : Room m e) (acc : Accuracy) :
    m / 2 ^ (targetOf m e - e).toNat ≤ roundedOf m e acc ∧
      roundedOf m e acc ≤ m / 2 ^ (targetOf m e - e).toNat + 1 := by
  have hr := roundedMantissa_bounds (shiftToTargetExponent binary64 m e acc).1
  rw [(first_shift_eq m h acc).1] at hr
  exact hr

/-- Rounding with room gives the rounded quotient at the target exponent: zero, a
mantissa below `2^53`, or a rounded quotient of `2^53` carried into the next exponent. -/
theorem roundWithAccuracy_cases (s : Sign) (m : Nat) {e : Int} (h : Room m e) (acc : Accuracy) :
    (roundedOf m e acc = 0 ∧ roundWithAccuracy binary64 s m e acc = .zero s) ∨
      (∃ hr : 0 < roundedOf m e acc, roundedOf m e acc < 2 ^ 53 ∧
        roundWithAccuracy binary64 s m e acc = .finite s _ (targetOf m e) hr) ∨
      (roundedOf m e acc = 2 ^ 53 ∧
        roundWithAccuracy binary64 s m e acc = .finite s (2 ^ 52) (targetOf m e + 1) (Nat.two_pow_pos 52)) := by
  obtain ⟨hmant, hexp⟩ := first_shift_eq m h acc
  have hq := (quotient_bounds m h).1
  have hT : -1074 ≤ targetOf m e := by rw [targetOf_eq]; omega
  unfold roundedOf UnpackedFloat.roundWithAccuracy
  generalize shiftToTargetExponent binary64 m e acc = first at hmant hexp ⊢
  obtain ⟨em, e₁⟩ := first
  dsimp only at hmant hexp ⊢
  subst hexp
  have hr := roundedMantissa_bounds em
  obtain ⟨h2m, h2e⟩ := second_shift_eq (r := em.roundedMantissa) (by omega) hT
  generalize shiftToTargetExponent binary64 em.roundedMantissa (targetOf m e) .exact = second
    at h2m h2e ⊢
  obtain ⟨⟨fm, rb, sb⟩, fe⟩ := second
  dsimp only at h2m h2e ⊢
  subst h2e
  by_cases hfull : em.roundedMantissa = 2 ^ 53
  · rw [if_pos hfull] at h2m
    subst h2m
    refine .inr (.inr ⟨hfull, ?_⟩)
    rw [dif_neg (by decide), if_pos hfull]
  · rw [if_neg hfull] at h2m
    subst h2m
    by_cases h0 : em.roundedMantissa = 0
    · exact .inl ⟨h0, dif_pos h0⟩
    · refine .inr (.inl ⟨Nat.pos_of_ne_zero h0, by omega, ?_⟩)
      rw [dif_neg h0, if_neg hfull]

/-- A subnormal value packs to bits that unpack to it. -/
theorem unpack_pack_subnormal (s : Sign) {m : Nat} (h : 0 < m) (hm : m < 2 ^ 52) :
    UnpackedFloat.unpack binary64 (UnpackedFloat.pack binary64 (.finite s m (-1074) h)) =
      .finite s m (-1074) h := by
  have hL : m.log2 < 52 := log2_lt_of_lt h hm
  have hn : ¬ 2 ^ binary64.exponentBits ≤
      ((-1074 : Int) + binary64.exponentBias + binary64.mantissaBitsWithoutImplicit).toNat + 1 := by
    decide
  simp only [UnpackedFloat.pack, if_neg hn]
  rw [if_neg (show ¬ m.log2 + 1 = binary64.mantissaBits by change ¬ m.log2 + 1 = 53; omega)]
  simp only [UnpackedFloat.unpack, unpackMantissa_packComponents, unpackExponent_packComponents,
    unpackSign_packComponents, ofBitVec_toBitVec]
  have hm0 : BitVec.ofNat 52 m ≠ 0#52 := by
    intro heq
    have := congrArg BitVec.toNat heq
    simp only [BitVec.toNat_ofNat] at this
    omega
  rw [if_neg (by decide), if_pos trivial, dif_neg hm0]
  simp only [BitVec.toNat_ofNat, Nat.mod_eq_of_lt hm]
  rfl

/-- A canonical finite value packs to bits that unpack to it. -/
theorem unpack_pack_finite (s : Sign) {m : Nat} (h : 0 < m) (hm : m < 2 ^ 53) {e : Int}
    (he : -1074 ≤ e) (he' : e ≤ 971) (hfull : -1074 < e → 2 ^ 52 ≤ m) :
    UnpackedFloat.unpack binary64 (UnpackedFloat.pack binary64 (.finite s m e h)) = .finite s m e h := by
  by_cases hlo : 2 ^ 52 ≤ m
  · exact unpack_pack_full s hlo hm he he'
  · obtain rfl : e = -1074 := by
      by_contra hne
      exact hlo (hfull (by omega))
    exact unpack_pack_subnormal s h (by omega)

/-- One rounding with room, packed and unpacked again: `±r · 2^T` for the rounded quotient
`r` at the target exponent `T`, a zero or a finite value, as long as the target exponent is
below the largest. -/
theorem unpack_pack_roundWithAccuracy (s : Sign) (m : Nat) {e : Int} (h : Room m e)
    (acc : Accuracy) (hT : targetOf m e ≤ 970) :
    Bounded (UnpackedFloat.unpack binary64 (UnpackedFloat.pack binary64 (roundWithAccuracy binary64 s m e acc))) ∧
      valueOf (UnpackedFloat.unpack binary64 (UnpackedFloat.pack binary64 (roundWithAccuracy binary64 s m e acc))) =
        (s.apply 1 : ℚ) * (roundedOf m e acc * 2 ^ targetOf m e) := by
  have hq := quotient_bounds m h
  have hr := roundedOf_bounds m h acc
  have hlo : -1074 ≤ targetOf m e := by rw [targetOf_eq]; omega
  rcases roundWithAccuracy_cases s m h acc with ⟨h0, hu⟩ | ⟨hpos, h53, hu⟩ | ⟨h53, hu⟩
  · rw [hu, unpack_pack_zero, valueOf_zero, h0]
    exact ⟨.inl ⟨s, rfl⟩, by simp⟩
  · rw [hu, unpack_pack_finite s hpos h53 hlo (by omega) (fun hT' => by have := hq.2 hT'; omega),
      valueOf_finite s hpos hlo]
    exact ⟨.inr ⟨_, _, _, _, rfl⟩, rfl⟩
  · rw [hu, unpack_pack_full s le_rfl (by decide) (by omega) (by omega), valueOf_finite s _ (by omega),
      h53, zpow_add_one₀ two_ne_zero]
    refine ⟨.inr ⟨_, _, _, _, rfl⟩, ?_⟩
    push_cast
    ring

/-- The rounded quotient at the target exponent is off the exact value by less than one
unit there. -/
theorem rounded_error (m : Nat) {e : Int} (h : Room m e) (acc : Accuracy) :
    |(roundedOf m e acc : ℚ) * 2 ^ targetOf m e - m * 2 ^ e| ≤ 2 ^ targetOf m e := by
  obtain ⟨hlo, hhi⟩ := roundedOf_bounds m h acc
  have hle := h.le_target
  generalize roundedOf m e acc = r at hlo hhi
  generalize hk : (targetOf m e - e).toNat = k at hlo hhi
  have hT : targetOf m e = e + k := by omega
  have hq := Nat.div_add_mod m (2 ^ k)
  have hmod := Nat.mod_lt m (Nat.two_pow_pos k)
  have h1 : m / 2 ^ k * 2 ^ k ≤ r * 2 ^ k := Nat.mul_le_mul_right _ hlo
  have h2 : r * 2 ^ k ≤ (m / 2 ^ k + 1) * 2 ^ k := Nat.mul_le_mul_right _ hhi
  have hup : r * 2 ^ k ≤ m + 2 ^ k := by rw [Nat.add_mul] at h2; rw [Nat.mul_comm] at hq; omega
  have hdown : m ≤ r * 2 ^ k + 2 ^ k := by rw [Nat.mul_comm] at hq; omega
  have hup' : (r : ℚ) * 2 ^ k ≤ m + 2 ^ k := by exact_mod_cast hup
  have hdown' : (m : ℚ) ≤ r * 2 ^ k + 2 ^ k := by exact_mod_cast hdown
  have hpow : (2 : ℚ) ^ targetOf m e = 2 ^ k * 2 ^ e := by
    rw [hT, zpow_add₀ two_ne_zero, zpow_natCast, mul_comm]
  have he : (0 : ℚ) < 2 ^ e := zpow_pos two_pos e
  rw [hpow, abs_le]
  constructor <;> nlinarith

/-- A value at most `2^N` has its target exponent at most `N - 52`, once `N` is in the
normal range. -/
theorem targetOf_le {m : Nat} {e N : Int} (h : Room m e) (hN : -1022 ≤ N)
    (hw : (m : ℚ) * 2 ^ e ≤ 2 ^ N) : targetOf m e ≤ N - 52 := by
  rw [targetOf_eq]
  rcases Nat.eq_zero_or_pos m with rfl | hm
  · rcases h with h | h
    · simp at h
    · simp only [Nat.log2_zero]
      omega
  · have hl : (2 : ℚ) ^ m.log2 ≤ m := by exact_mod_cast Nat.log2_self_le (by omega)
    have h2 : (2 : ℚ) ^ ((m.log2 : Int) + e) ≤ 2 ^ N := by
      rw [zpow_add₀ two_ne_zero, zpow_natCast]
      exact le_trans (mul_le_mul_of_nonneg_right hl (zpow_pos two_pos e).le) hw
    have := (zpow_le_zpow_iff_right₀ (by norm_num : (1 : ℚ) < 2)).1 h2
    omega

/-! ### Relative error -/

/-- The error of a rounding near zero: `2^-1073`, two least subnormals. -/
def tinyError : ℚ := 1 / 2 ^ 1073

theorem tinyError_pos : 0 < tinyError := by unfold tinyError; positivity


/-- The size of a positive value as a power of two: the least `2^N` at or above it, but
never below `2^-1022`. One rounding's error `2^(N - 52)` at that size is at most
`w / 2^51`, or `2^-1074` near zero. -/
theorem exists_size {w : ℚ} (hw : 0 < w) (hw' : w ≤ 2 ^ 1022) :
    ∃ N : Int, -1022 ≤ N ∧ N ≤ 1022 ∧ w ≤ 2 ^ N ∧ (2 : ℚ) ^ (N - 52) ≤ w / 2 ^ 51 + tinyError / 2 := by
  have hlo := Int.zpow_pred_clog_lt_self (R := ℚ) (b := 2) (by norm_num) hw
  have hhi := Int.self_le_zpow_clog (R := ℚ) (b := 2) (by norm_num) w
  push_cast at hlo hhi
  have hN : Int.clog 2 w ≤ 1022 := by
    have h2 : (2 : ℚ) ^ (Int.clog 2 w - 1) < 2 ^ ((1022 : Nat) : Int) := by
      rw [zpow_natCast]
      exact lt_of_lt_of_le hlo hw'
    have := (zpow_lt_zpow_iff_right₀ (by norm_num : (1 : ℚ) < 2)).1 h2
    omega
  have htiny : (0 : ℚ) ≤ w / 2 ^ 51 := by positivity
  refine ⟨max (Int.clog 2 w) (-1022), le_max_right _ _, max_le hN (by norm_num), ?_, ?_⟩
  · exact hhi.trans (zpow_le_zpow_right₀ (by norm_num) (le_max_left _ _))
  · rcases le_total (Int.clog 2 w) (-1022) with h | h
    · rw [max_eq_right h, show (-1022 : Int) - 52 = -((1073 : Nat) : Int) - 1 by norm_num,
        zpow_sub_one₀ two_ne_zero, zpow_neg, zpow_natCast, tinyError, one_div, ← div_eq_mul_inv]
      exact le_add_of_nonneg_left htiny
    · rw [max_eq_left h]
      have hsplit : (2 : ℚ) ^ (Int.clog 2 w - 52) = 2 ^ (Int.clog 2 w - 1) / 2 ^ 51 := by
        rw [show Int.clog 2 w - 52 = (Int.clog 2 w - 1) - ((51 : Nat) : Int) by omega,
          zpow_sub₀ two_ne_zero, zpow_natCast]
      have hdiv : (2 : ℚ) ^ (Int.clog 2 w - 1) / 2 ^ 51 ≤ w / 2 ^ 51 :=
        div_le_div_of_nonneg_right hlo.le (by positivity)
      have := tinyError_pos
      rw [hsplit]
      linarith

/-- A double that one rounding made of the exact value `w`: finite, on the side of zero
that `w` is on, and within `|w| / 2^50` of `w`, or within `2^-1073` near zero. -/
structure Rounded (x : Float) (w : ℚ) : Prop where
  finite : isFinite x = true
  nonneg : 0 ≤ w → 0 ≤ value x
  nonpos : w ≤ 0 → value x ≤ 0
  near : |value x - w| ≤ |w| / 2 ^ 50 + tinyError

/-- A rounding of a positive value `w` to a magnitude `a`, given the sign `s`, rounds
`±w`. -/
theorem Rounded.of_magnitude {z : Float} {s : Sign} {a w : ℚ} (hz : isFinite z = true)
    (ha : 0 ≤ a) (hv : value z = (s.apply 1 : ℚ) * a) (hw : 0 < w)
    (hnear : |a - w| ≤ w / 2 ^ 50 + tinyError) : Rounded z ((s.apply 1 : ℚ) * w) := by
  refine ⟨hz, fun h => ?_, fun h => ?_, ?_⟩
  · cases s <;> simp only [Sign.apply, Int.cast_one, Int.cast_neg, one_mul, neg_mul] at h hv ⊢ <;>
      rw [hv] <;> linarith
  · cases s <;> simp only [Sign.apply, Int.cast_one, Int.cast_neg, one_mul, neg_mul] at h hv ⊢ <;>
      rw [hv] <;> linarith
  · rw [hv, abs_mul, abs_of_pos hw, ← mul_sub, abs_mul]
    cases s <;> simpa [Sign.apply] using hnear

theorem Rounded.of_zero {z : Float} {t : Sign} (hz : z.toModel.unpack = .zero t) : Rounded z 0 := by
  have hv : value z = 0 := by rw [value_eq_valueOf, hz, valueOf_zero]
  exact ⟨isFinite_of_unpack_zero hz, fun _ => hv.ge, fun _ => hv.le, by
    simp only [hv, sub_zero, abs_zero, zero_div, zero_add]
    exact tinyError_pos.le⟩

/-- One rounding with room of a value at most `2^1022`, packed: within `|w| / 2^50` of the
value, or `2^-1074` near zero. -/
theorem roundWithAccuracy_near (s : Sign) (m : Nat) {e : Int} (h : Room m e) (acc : Accuracy)
    {N : Int} (hN : -1022 ≤ N) (hN' : N ≤ 1022) (hw : (m : ℚ) * 2 ^ e ≤ 2 ^ N) :
    Bounded (UnpackedFloat.unpack binary64 (UnpackedFloat.pack binary64 (roundWithAccuracy binary64 s m e acc))) ∧
      ∃ a : ℚ, 0 ≤ a ∧
        valueOf (UnpackedFloat.unpack binary64 (UnpackedFloat.pack binary64 (roundWithAccuracy binary64 s m e acc))) =
          (s.apply 1 : ℚ) * a ∧ |a - m * 2 ^ e| ≤ 2 ^ targetOf m e ∧ targetOf m e ≤ N - 52 := by
  have hT := targetOf_le h hN hw
  obtain ⟨hb, hv⟩ := unpack_pack_roundWithAccuracy s m h acc (by omega)
  exact ⟨hb, _, by positivity, hv, rounded_error m h acc, hT⟩

/-! ### Finite doubles -/

/-- A finite double unpacks to a zero or to a canonical finite value. -/
theorem unpack_of_isFinite {x : Float} (hx : isFinite x = true) :
    (∃ t, x.toModel.unpack = .zero t) ∨
      ∃ t m e h, x.toModel.unpack = .finite t m e h ∧ m < 2 ^ 53 ∧ -1074 ≤ e ∧ e ≤ 971 ∧
        (-1074 < e → 2 ^ 52 ≤ m) := by
  rw [unpack_eq_toUnpacked hx, Binary.toUnpacked]
  by_cases hm : 0 < (Binary.ofFloat x).mant
  · obtain ⟨_, h53, hlo, hhi, hfull⟩ := valid_ofFloat hx (by omega)
    rw [dif_pos hm]
    exact .inr ⟨_, _, _, hm, rfl, h53, hlo, hhi, fun h => hfull.resolve_right (by omega)⟩
  · rw [dif_neg hm]
    exact .inl ⟨_, rfl⟩

theorem value_of_unpack_finite {x : Float} {s : Sign} {m : Nat} {e : Int} {h : 0 < m}
    (hu : x.toModel.unpack = .finite s m e h) (he : -1074 ≤ e) :
    value x = (s.apply 1 : ℚ) * (m * 2 ^ e) := by
  rw [value_eq_valueOf, hu, valueOf_finite s h he]

theorem value_of_unpack_zero {x : Float} {s : Sign} (hu : x.toModel.unpack = .zero s) : value x = 0 := by
  rw [value_eq_valueOf, hu, valueOf_zero]

theorem apply_one_mul (s t : Sign) : ((s * t).apply 1 : ℚ) = s.apply 1 * t.apply 1 := by
  have h : (s * t).apply 1 = s.apply 1 * t.apply 1 := by cases s <;> cases t <;> rfl
  rw [h, Int.cast_mul]

theorem apply_one_div (s t : Sign) : ((s / t).apply 1 : ℚ) = s.apply 1 * t.apply 1 := by
  have h : (s / t).apply 1 = s.apply 1 * t.apply 1 := by cases s <;> cases t <;> rfl
  rw [h, Int.cast_mul]

theorem abs_apply_one_mul (s : Sign) (w : ℚ) : |(s.apply 1 : ℚ) * w| = |w| := by
  cases s <;> simp [Sign.apply]

/-- Two errors of one rounding at a size `2^N` each, against the value they are about. -/
theorem error_le {a w : ℚ} {N : Int} (h : |a - w| ≤ 2 * 2 ^ (N - 52))
    (hN : (2 : ℚ) ^ (N - 52) ≤ w / 2 ^ 51 + tinyError / 2) : |a - w| ≤ w / 2 ^ 50 + tinyError := by
  calc |a - w| ≤ 2 * 2 ^ (N - 52) := h
    _ ≤ 2 * (w / 2 ^ 51 + tinyError / 2) := by gcongr
    _ = w / 2 ^ 50 + tinyError := by ring

/-! ### Products -/

/-- A product of canonical mantissas has room to round: a mantissa of full width is a
factor, or the exponents add up to the least or below. -/
theorem room_mul {m m' : Nat} {e e' : Int} (hm : 0 < m) (hm' : 0 < m') (he : -1074 ≤ e)
    (hfull : -1074 < e → 2 ^ 52 ≤ m) (hfull' : -1074 < e' → 2 ^ 52 ≤ m') :
    Room (m * m') (e + e') := by
  by_cases hsum : e + e' ≤ -1074
  · exact .inr hsum
  · refine .inl ((Nat.le_log2 (Nat.mul_ne_zero (by omega) (by omega))).2 ?_)
    by_cases hn : -1074 < e
    · exact le_trans (hfull hn) (Nat.le_mul_of_pos_right m hm')
    · exact le_trans (hfull' (by omega)) (Nat.le_mul_of_pos_left m' hm)

/-- The product of two finite doubles of size at most `2^1022` is one rounding of the exact
product. -/
theorem Rounded.mul {x y : Float} (hx : isFinite x = true) (hy : isFinite y = true)
    (hw : |value x * value y| ≤ 2 ^ 1022) : Rounded (x * y) (value x * value y) := by
  rcases unpack_of_isFinite hx with ⟨s, hu⟩ | ⟨s, m, e, hm, hu, -, he, -, hfull⟩
  · rw [value_of_unpack_zero hu, zero_mul]
    rcases unpack_of_isFinite hy with ⟨t, hu'⟩ | ⟨t, m', e', hm', hu', -⟩ <;>
      exact Rounded.of_zero (by rw [unpack_mul, hu, hu']; exact unpack_pack_zero _)
  rcases unpack_of_isFinite hy with ⟨t, hu'⟩ | ⟨t, m', e', hm', hu', -, he', -, hfull'⟩
  · rw [value_of_unpack_zero hu', mul_zero]
    exact Rounded.of_zero (by rw [unpack_mul, hu, hu']; exact unpack_pack_zero _)
  have hroom := room_mul hm hm' he hfull hfull'
  have hprod : value x * value y = ((s * t).apply 1 : ℚ) * ((m * m' : Nat) * 2 ^ (e + e')) := by
    rw [value_of_unpack_finite hu he, value_of_unpack_finite hu' he', apply_one_mul,
      zpow_add₀ two_ne_zero]
    push_cast
    ring
  have hpos : (0 : ℚ) < (m * m' : Nat) * 2 ^ (e + e') := by
    have : 0 < m * m' := Nat.mul_pos hm hm'
    positivity
  rw [hprod, abs_apply_one_mul, abs_of_pos hpos] at hw
  rw [hprod]
  obtain ⟨N, hN, hN', hWN, herr⟩ := exists_size hpos hw
  clear hw hprod
  obtain ⟨hb, a, ha, hv, hnear, hT⟩ := roundWithAccuracy_near (s * t) (m * m') hroom .exact hN hN' hWN
  refine Rounded.of_magnitude (isFinite_of_bounded (by rw [unpack_mul, hu, hu']; exact hb)) ha
    (by rw [value_eq_valueOf, unpack_mul, hu, hu']; exact hv) hpos (error_le ?_ herr)
  have h2 : (2 : ℚ) ^ targetOf (m * m') (e + e') ≤ 2 ^ (N - 52) :=
    zpow_le_zpow_right₀ (by norm_num) hT
  have h0 : (0 : ℚ) ≤ 2 ^ (N - 52) := (zpow_pos two_pos _).le
  linarith

/-! ### Quotients -/

/-- The quotient the model divides out, `m₁ · 2^sh / m₂` at an exponent `t`, has room to
round and lies within one unit at `t` below the exact quotient. -/
theorem divCore_spec {m₁ m₂ : Nat} (h₁ : 0 < m₁) (h₂ : 0 < m₂) (e₁ e₂ : Int) :
    Room (divCore binary64 m₁ e₁ m₂ e₂).1 (divCore binary64 m₁ e₁ m₂ e₂).2.1 ∧
      ((divCore binary64 m₁ e₁ m₂ e₂).1 : ℚ) * 2 ^ (divCore binary64 m₁ e₁ m₂ e₂).2.1 ≤
        m₁ * 2 ^ e₁ / (m₂ * 2 ^ e₂) ∧
      (m₁ * 2 ^ e₁ / (m₂ * 2 ^ e₂) : ℚ) <
        ((divCore binary64 m₁ e₁ m₂ e₂).1 + 1) * 2 ^ (divCore binary64 m₁ e₁ m₂ e₂).2.1 := by
  unfold divCore
  dsimp only
  rw [targetExponent_eq]
  simp only [totalExponent]
  generalize ht : min (e₁ - e₂) (max ((m₁.log2 : Int) + 1 + e₁ - (m₂.log2 + 1 + e₂) - 53) (-1074)) = t
  generalize hsh : (e₁ - e₂ - t).toNat = sh
  have hsh' : (sh : Int) = e₁ - e₂ - t := by omega
  rw [Nat.shiftLeft_eq]
  have hq : (m₁ * 2 ^ e₁ / (m₂ * 2 ^ e₂) : ℚ) = (m₁ * 2 ^ sh : Nat) / m₂ * 2 ^ t := by
    have : (2 : ℚ) ^ e₁ = 2 ^ e₂ * 2 ^ (sh : Int) * 2 ^ t := by
      rw [← zpow_add₀ two_ne_zero, ← zpow_add₀ two_ne_zero]
      congr 1
      omega
    rw [this, zpow_natCast]
    push_cast
    field_simp
  have hm₂ : (0 : ℚ) < m₂ := by exact_mod_cast h₂
  have hpow : (0 : ℚ) < 2 ^ t := zpow_pos two_pos t
  have hlo : (m₁ * 2 ^ sh / m₂ : Nat) * m₂ ≤ m₁ * 2 ^ sh := Nat.div_mul_le_self _ _
  have hhi : m₁ * 2 ^ sh < (m₁ * 2 ^ sh / m₂ : Nat) * m₂ + m₂ := Nat.lt_div_mul_add h₂
  refine ⟨?_, ?_, ?_⟩
  · by_cases hlow : t ≤ -1074
    · exact .inr hlow
    · -- away from the least exponent the shift leaves the quotient 53 bits
      left
      have hlog₁ := Nat.log2_self_le (n := m₁) (by omega)
      have hlog₂ := Nat.lt_log2_self (n := m₂)
      have hbig : 2 ^ 52 * m₂ ≤ m₁ * 2 ^ sh := by
        calc 2 ^ 52 * m₂ ≤ 2 ^ 52 * 2 ^ (m₂.log2 + 1) := Nat.mul_le_mul_left _ hlog₂.le
          _ = 2 ^ (m₂.log2 + 53) := by rw [← Nat.pow_add]; ring_nf
          _ ≤ 2 ^ (m₁.log2 + sh) := Nat.pow_le_pow_right (by norm_num) (by omega)
          _ = 2 ^ m₁.log2 * 2 ^ sh := Nat.pow_add _ _ _
          _ ≤ m₁ * 2 ^ sh := Nat.mul_le_mul_right _ hlog₁
      have hq52 : 2 ^ 52 ≤ m₁ * 2 ^ sh / m₂ := (Nat.le_div_iff_mul_le h₂).2 (by linarith)
      exact (Nat.le_log2 (by positivity)).2 hq52
  · rw [hq]
    refine mul_le_mul_of_nonneg_right ?_ hpow.le
    rw [le_div_iff₀ hm₂]
    exact_mod_cast hlo
  · rw [hq]
    refine mul_lt_mul_of_pos_right ?_ hpow
    rw [div_lt_iff₀ hm₂]
    have : ((m₁ * 2 ^ sh : Nat) : ℚ) < (m₁ * 2 ^ sh / m₂ : Nat) * m₂ + m₂ := by exact_mod_cast hhi
    push_cast at this ⊢
    linarith

theorem apply_one_inv (t : Sign) : (t.apply 1 : ℚ)⁻¹ = t.apply 1 := by
  cases t <;> norm_num [Sign.apply]

/-- The quotient of two finite doubles, the divisor not zero, of size at most `2^1022` is
one rounding of the exact quotient. -/
theorem Rounded.div {x y : Float} (hx : isFinite x = true) (hy : isFinite y = true)
    (hy0 : value y ≠ 0) (hw : |value x / value y| ≤ 2 ^ 1022) : Rounded (x / y) (value x / value y) := by
  rcases unpack_of_isFinite hy with ⟨t, hu'⟩ | ⟨t, m', e', hm', hu', -, he', -⟩
  · exact absurd (value_of_unpack_zero hu') hy0
  rcases unpack_of_isFinite hx with ⟨s, hu⟩ | ⟨s, m, e, hm, hu, -, he, -⟩
  · rw [value_of_unpack_zero hu, zero_div]
    exact Rounded.of_zero (by rw [unpack_div, hu, hu']; exact unpack_pack_zero _)
  obtain ⟨hroom, hlo, hhi⟩ := divCore_spec hm hm' e e'
  generalize hW : (m * 2 ^ e / (m' * 2 ^ e') : ℚ) = W at hlo hhi
  have hquot : value x / value y = ((s / t).apply 1 : ℚ) * W := by
    rw [value_of_unpack_finite hu he, value_of_unpack_finite hu' he', apply_one_div, ← hW,
      mul_div_mul_comm, div_eq_mul_inv (s.apply 1 : ℚ), apply_one_inv]
  have hpos : 0 < W := by rw [← hW]; positivity
  rw [hquot, abs_apply_one_mul, abs_of_pos hpos] at hw
  rw [hquot]
  obtain ⟨N, hN, hN', hWN, herr⟩ := exists_size hpos hw
  clear hw hquot
  obtain ⟨hb, a, ha, hv, hnear, hT⟩ := roundWithAccuracy_near (s / t) _ hroom
    (divCore binary64 m e m' e').2.2 hN hN' (hlo.trans hWN)
  refine Rounded.of_magnitude (isFinite_of_bounded (by rw [unpack_div, hu, hu']; exact hb)) ha
    (by rw [value_eq_valueOf, unpack_div, hu, hu']; exact hv) hpos (error_le ?_ herr)
  have ht : (2 : ℚ) ^ (divCore binary64 m e m' e').2.1 ≤ 2 ^ (N - 52) :=
    zpow_le_zpow_right₀ (by norm_num) (hroom.le_target.trans hT)
  have h2 : (2 : ℚ) ^ targetOf _ (divCore binary64 m e m' e').2.1 ≤ 2 ^ (N - 52) :=
    zpow_le_zpow_right₀ (by norm_num) hT
  rw [abs_le] at hnear ⊢
  constructor <;> nlinarith

/-! ### Sums and differences -/

theorem Rounded.of_eq {z : Float} (hz : isFinite z = true) {w : ℚ} (hv : value z = w) : Rounded z w := by
  subst hv
  exact ⟨hz, id, id, by simp only [sub_self, abs_zero]; exact add_nonneg (by positivity) tinyError_pos.le⟩

/-- Rounding an exact mantissa first lowers its exponent to the target exponent, which keeps
its value and leaves room to round. -/
theorem round_eq (s : Sign) {m : Nat} (hm : 0 < m) (E : Int) :
    ∃ m' E', Room m' E' ∧ (m' : ℚ) * 2 ^ E' = m * 2 ^ E ∧
      UnpackedFloat.round binary64 s m E = roundWithAccuracy binary64 s m' E' .exact := by
  refine ⟨m <<< (E - binary64.targetExponent (totalExponent m E)).toNat,
    E - (E - binary64.targetExponent (totalExponent m E)).toNat, ?_, ?_, rfl⟩
  · have hlog := log2_shiftLeft hm (E - binary64.targetExponent (totalExponent m E)).toNat
    unfold Room
    rw [hlog, targetExponent_eq, totalExponent]
    omega
  · rw [Nat.shiftLeft_eq]
    push_cast
    rw [mul_assoc, ← zpow_natCast (2 : ℚ), ← zpow_add₀ two_ne_zero]
    congr 2
    omega

/-- A positive mantissa at an exponent, of size at most `2^1022`, rounded with a sign: one
rounding of the signed value. -/
theorem Rounded.of_round {z : Float} (s : Sign) {m : Nat} (hm : 0 < m) {E : Int}
    (hz : z.toModel.unpack = UnpackedFloat.unpack binary64 (UnpackedFloat.pack binary64 (UnpackedFloat.round binary64 s m E)))
    (hw : (m : ℚ) * 2 ^ E ≤ 2 ^ 1022) : Rounded z ((s.apply 1 : ℚ) * (m * 2 ^ E)) := by
  obtain ⟨m', E', hroom, hval, hround⟩ := round_eq s hm E
  rw [hround] at hz
  have hpos : (0 : ℚ) < m * 2 ^ E := by positivity
  obtain ⟨N, hN, hN', hWN, herr⟩ := exists_size hpos hw
  clear hw
  rw [← hval] at hWN
  obtain ⟨hb, a, ha, hv, hnear, hT⟩ := roundWithAccuracy_near s m' hroom .exact hN hN' hWN
  rw [hval] at hnear
  refine Rounded.of_magnitude (isFinite_of_bounded (by rw [hz]; exact hb)) ha
    (by rw [value_eq_valueOf, hz]; exact hv) hpos (error_le ?_ herr)
  have h2 : (2 : ℚ) ^ targetOf m' E' ≤ 2 ^ (N - 52) := zpow_le_zpow_right₀ (by norm_num) hT
  have h0 : (0 : ℚ) ≤ 2 ^ (N - 52) := (zpow_pos two_pos _).le
  linarith

/-- An integer mantissa at an exponent, of size at most `2^1022`, normalized: one rounding
of its value. -/
theorem Rounded.of_normalize {z : Float} {M E : Int} {zs : Sign}
    (hz : z.toModel.unpack = UnpackedFloat.unpack binary64 (UnpackedFloat.pack binary64 (UnpackedFloat.normalize binary64 M E zs)))
    (hw : |(M : ℚ) * 2 ^ E| ≤ 2 ^ 1022) : Rounded z (M * 2 ^ E) := by
  have hpow : (0 : ℚ) < 2 ^ E := zpow_pos two_pos E
  unfold UnpackedFloat.normalize at hz
  split at hz
  · next hlt =>
    have hM : M < 0 := Int.compare_eq_lt.1 hlt
    have hcast : ((-M).toNat : ℚ) = -M := by exact_mod_cast Int.toNat_of_nonneg (by omega)
    have hval : (M : ℚ) * 2 ^ E = (Sign.negative.apply 1 : ℚ) * ((-M).toNat * 2 ^ E) := by
      rw [hcast]; simp [Sign.apply]
    rw [hval]
    refine Rounded.of_round .negative (by omega) hz ?_
    rw [hcast, abs_mul, abs_of_neg (by exact_mod_cast hM), abs_of_pos hpow] at *
    exact hw
  · next heq =>
    rw [Int.compare_eq_eq.1 heq, Int.cast_zero, zero_mul]
    exact Rounded.of_zero (by rw [hz]; exact unpack_pack_zero _)
  · next hgt =>
    have hM : 0 < M := Int.compare_eq_gt.1 hgt
    have hcast : (M.toNat : ℚ) = M := by exact_mod_cast Int.toNat_of_nonneg (by omega)
    have hval : (M : ℚ) * 2 ^ E = (Sign.positive.apply 1 : ℚ) * (M.toNat * 2 ^ E) := by
      rw [hcast]; simp [Sign.apply]
    rw [hval]
    refine Rounded.of_round .positive (by omega) hz ?_
    rw [hcast, abs_mul, abs_of_pos (by exact_mod_cast hM), abs_of_pos hpow] at *
    exact hw

/-- Two finite values as integer mantissas at the smaller exponent. -/
theorem value_add_eq (s t : Sign) (m m' : Nat) (e e' : Int) :
    (s.apply 1 : ℚ) * (m * 2 ^ e) + (t.apply 1 : ℚ) * (m' * 2 ^ e') =
      ((s.apply ((m <<< (e - min e e').toNat : Nat) : Int) + t.apply ((m' <<< (e' - min e e').toNat : Nat) : Int) : Int) : ℚ) *
        2 ^ (min e e') := by
  have hsplit : ∀ f : Int, min e e' ≤ f → (2 : ℚ) ^ f = 2 ^ (f - min e e').toNat * 2 ^ (min e e') := by
    intro f hf
    rw [← zpow_natCast, ← zpow_add₀ two_ne_zero]
    congr 1
    omega
  rw [hsplit e (min_le_left _ _), hsplit e' (min_le_right _ _)]
  cases s <;> cases t <;> simp only [Sign.apply, Nat.shiftLeft_eq] <;> push_cast <;> ring

/-- The sum of two finite doubles of size at most `2^1022` is one rounding of the exact
sum. -/
theorem Rounded.add {x y : Float} (hx : isFinite x = true) (hy : isFinite y = true)
    (hw : |value x + value y| ≤ 2 ^ 1022) : Rounded (x + y) (value x + value y) := by
  rcases unpack_of_isFinite hx with ⟨s, hu⟩ | ⟨s, m, e, hm, hu, h53, he, he₂, hfull⟩ <;>
    rcases unpack_of_isFinite hy with ⟨t, hu'⟩ | ⟨t, m', e', hm', hu', h53', he', he₂', hfull'⟩
  · -- two zeros add to a zero
    rw [value_of_unpack_zero hu, value_of_unpack_zero hu', add_zero]
    refine Rounded.of_zero (t := if s == t then s else .positive) ?_
    rw [unpack_add, hu, hu']
    cases s <;> cases t <;> rfl
  · -- a zero leaves the other value as it is
    rw [value_of_unpack_zero hu, zero_add]
    have hz : (x + y).toModel.unpack = y.toModel.unpack := by
      rw [unpack_add, hu, hu']
      exact unpack_pack_finite t hm' h53' he' he₂' hfull'
    exact Rounded.of_eq (isFinite_of_unpack (hz.trans hu')) (by rw [value_eq_valueOf, hz]; rfl)
  · rw [value_of_unpack_zero hu', add_zero]
    have hz : (x + y).toModel.unpack = x.toModel.unpack := by
      rw [unpack_add, hu, hu']
      exact unpack_pack_finite s hm h53 he he₂ hfull
    exact Rounded.of_eq (isFinite_of_unpack (hz.trans hu)) (by rw [value_eq_valueOf, hz]; rfl)
  · rw [value_of_unpack_finite hu he, value_of_unpack_finite hu' he', value_add_eq] at hw ⊢
    exact Rounded.of_normalize (by rw [unpack_add, hu, hu']; rfl) hw

/-- The difference of two finite doubles of size at most `2^1022` is one rounding of the
exact difference. -/
theorem Rounded.sub {x y : Float} (hx : isFinite x = true) (hy : isFinite y = true)
    (hw : |value x - value y| ≤ 2 ^ 1022) : Rounded (x - y) (value x - value y) := by
  rcases unpack_of_isFinite hx with ⟨s, hu⟩ | ⟨s, m, e, hm, hu, h53, he, he₂, hfull⟩ <;>
    rcases unpack_of_isFinite hy with ⟨t, hu'⟩ | ⟨t, m', e', hm', hu', h53', he', he₂', hfull'⟩
  · rw [value_of_unpack_zero hu, value_of_unpack_zero hu', sub_zero]
    refine Rounded.of_zero (t := if s == -t then s else .positive) ?_
    rw [unpack_sub, hu, hu']
    cases s <;> cases t <;> rfl
  · -- zero minus a value is the value negated
    have hz : (x - y).toModel.unpack = .finite (-t) m' e' hm' := by
      rw [unpack_sub, hu, hu']
      exact unpack_pack_finite (-t) hm' h53' he' he₂' hfull'
    rw [value_of_unpack_zero hu, zero_sub, value_of_unpack_finite hu' he']
    refine Rounded.of_eq (isFinite_of_unpack hz) ?_
    rw [value_of_unpack_finite hz he', apply_neg, Int.cast_neg, neg_mul]
  · rw [value_of_unpack_zero hu', sub_zero]
    have hz : (x - y).toModel.unpack = x.toModel.unpack := by
      rw [unpack_sub, hu, hu']
      exact unpack_pack_finite s hm h53 he he₂ hfull
    exact Rounded.of_eq (isFinite_of_unpack (hz.trans hu)) (by rw [value_eq_valueOf, hz]; rfl)
  · -- a difference is the sum with the second sign turned
    have hneg : value x - value y = (s.apply 1 : ℚ) * (m * 2 ^ e) + ((-t).apply 1 : ℚ) * (m' * 2 ^ e') := by
      rw [value_of_unpack_finite hu he, value_of_unpack_finite hu' he', apply_neg, Int.cast_neg]
      ring
    have hM : ∀ a b : Int, s.apply a + (-t).apply b = s.apply a - t.apply b := by
      intro a b
      rw [apply_neg]
      omega
    rw [hneg, value_add_eq, hM] at hw ⊢
    exact Rounded.of_normalize (by rw [unpack_sub, hu, hu']; rfl) hw

/-! ### Square roots -/

/-- The root the model takes, the integer root of the mantissa moved to an even exponent
`2t`, has room to round, and its square and that of one more bracket the value. -/
theorem sqrtCore_spec {m : Nat} (hm : 0 < m) (e : Int) :
    Room (sqrtCore binary64 m e).1 (sqrtCore binary64 m e).2.1 ∧ 0 < (sqrtCore binary64 m e).1 ∧
      (((sqrtCore binary64 m e).1 : ℚ) * 2 ^ (sqrtCore binary64 m e).2.1) ^ 2 ≤ m * 2 ^ e ∧
      (m * 2 ^ e : ℚ) < (((sqrtCore binary64 m e).1 + 1) * 2 ^ (sqrtCore binary64 m e).2.1) ^ 2 := by
  unfold sqrtCore
  dsimp only
  rw [targetExponent_eq, show e.ediv 2 = e / 2 from rfl]
  simp only [totalExponent]
  generalize ht : min (e / 2) (max (((m.log2 : Int) + 1 + e + 1).ediv 2 - 53) (-1074)) = t
  rw [show ((m.log2 : Int) + 1 + e + 1).ediv 2 = ((m.log2 : Int) + 1 + e + 1) / 2 from rfl] at ht
  generalize hsh : (e - 2 * t).toNat = sh
  have hsh' : (sh : Int) = e - 2 * t := by omega
  rw [Nat.shiftLeft_eq]
  have hM : 0 < m * 2 ^ sh := Nat.mul_pos hm (Nat.two_pow_pos sh)
  have hroot := Nat.sqrt_le' (m * 2 ^ sh)
  have hroot' := Nat.lt_succ_sqrt' (m * 2 ^ sh)
  have hval : (m * 2 ^ e : ℚ) = (m * 2 ^ sh : Nat) * (2 ^ t) ^ 2 := by
    rw [← zpow_natCast ((2 : ℚ) ^ t) 2, ← zpow_mul, Nat.cast_mul, Nat.cast_pow, Nat.cast_ofNat,
      mul_assoc, ← zpow_natCast (2 : ℚ) sh, ← zpow_add₀ two_ne_zero]
    congr 2
    push_cast
    omega
  refine ⟨?_, Nat.le_sqrt.2 (by omega), ?_, ?_⟩
  · by_cases hlow : t ≤ -1074
    · exact .inr hlow
    · -- away from the least exponent the root has 53 bits
      left
      have hlog := Nat.log2_self_le (n := m) (by omega)
      have hbig : 2 ^ 52 * 2 ^ 52 ≤ m * 2 ^ sh := by
        calc 2 ^ 52 * 2 ^ 52 = 2 ^ 104 := by norm_num
          _ ≤ 2 ^ (m.log2 + sh) := Nat.pow_le_pow_right (by norm_num) (by omega)
          _ = 2 ^ m.log2 * 2 ^ sh := Nat.pow_add _ _ _
          _ ≤ m * 2 ^ sh := Nat.mul_le_mul_right _ hlog
      exact (Nat.le_log2 (by have := Nat.le_sqrt.2 hbig; positivity)).2 (Nat.le_sqrt.2 hbig)
  · rw [hval, mul_pow]
    refine mul_le_mul_of_nonneg_right ?_ (by positivity)
    exact_mod_cast hroot
  · rw [hval, mul_pow]
    refine mul_lt_mul_of_pos_right ?_ (by positivity)
    exact_mod_cast hroot'

/-- The square root of a finite double at least zero and at most `2^1022` is one rounding of a
value `ρ` whose square is at most the double, and whose square after one more unit at its
exponent is above it. -/
theorem Rounded.sqrt {x : Float} (hx : isFinite x = true) (h0 : 0 ≤ value x) (hw : value x ≤ 2 ^ 1022) :
    ∃ ρ : ℚ, 0 ≤ ρ ∧ ρ ^ 2 ≤ value x ∧ value x < (ρ + ρ / 2 ^ 51 + tinyError) ^ 2 ∧ Rounded x.sqrt ρ := by
  have hsq : x.sqrt.toModel.unpack =
      UnpackedFloat.unpack binary64 (UnpackedFloat.pack binary64 (UnpackedFloat.sqrt binary64 x.toModel.unpack)) := rfl
  rcases unpack_of_isFinite hx with ⟨s, hu⟩ | ⟨s, m, e, hm, hu, -, he, -⟩
  · refine ⟨0, le_rfl, by rw [value_of_unpack_zero hu]; norm_num, ?_, ?_⟩
    · rw [value_of_unpack_zero hu, zero_div, zero_add, zero_add]
      exact pow_pos tinyError_pos 2
    · exact Rounded.of_zero (t := s) (by rw [hsq, hu]; exact unpack_pack_zero s)
  cases s with
  | negative =>
    have : value x < 0 := by
      rw [value_of_unpack_finite hu he]
      simp only [Sign.apply, Int.cast_neg, Int.cast_one, neg_mul, one_mul, Left.neg_neg_iff]
      positivity
    exact absurd h0 (not_le.2 this)
  | positive =>
    obtain ⟨hroom, hpos, hlo, hhi⟩ := sqrtCore_spec hm e
    rw [value_of_unpack_finite hu he] at h0 hw ⊢
    simp only [Sign.apply, Int.cast_one, one_mul] at h0 hw ⊢
    generalize hρ : ((sqrtCore binary64 m e).1 : ℚ) * 2 ^ (sqrtCore binary64 m e).2.1 = ρ at hlo
    have hρpos : 0 < ρ := by rw [← hρ]; positivity
    have hρle : ρ ≤ 2 ^ 1022 := by
      rcases le_total ρ 1 with h1 | h1
      · exact h1.trans (one_le_pow₀ (by norm_num))
      · exact (le_self_pow₀ h1 two_ne_zero).trans (hlo.trans hw)
    obtain ⟨N, hN, hN', hWN, herr⟩ := exists_size hρpos hρle
    clear hw hρle
    obtain ⟨hb, a, ha, hv, hnear, hT⟩ := roundWithAccuracy_near .positive _ hroom
      (sqrtCore binary64 m e).2.2 hN hN' (by rw [hρ]; exact hWN)
    rw [hρ] at hnear
    have ht : (2 : ℚ) ^ (sqrtCore binary64 m e).2.1 ≤ 2 ^ (N - 52) :=
      zpow_le_zpow_right₀ (by norm_num) (hroom.le_target.trans hT)
    have h2 : (2 : ℚ) ^ targetOf _ (sqrtCore binary64 m e).2.1 ≤ 2 ^ (N - 52) :=
      zpow_le_zpow_right₀ (by norm_num) hT
    have htiny := tinyError_pos
    have h0 : (0 : ℚ) ≤ 2 ^ (N - 52) := (zpow_pos two_pos _).le
    refine ⟨ρ, hρpos.le, hlo, ?_, ?_⟩
    · -- one more unit at the exponent is within the error of one rounding
      calc _ < _ := hhi
        _ = (ρ + 2 ^ (sqrtCore binary64 m e).2.1) ^ 2 := by rw [← hρ]; ring
        _ ≤ _ := by
          have : (2 : ℚ) ^ (sqrtCore binary64 m e).2.1 ≤ ρ / 2 ^ 51 + tinyError := by linarith
          exact pow_le_pow_left₀ (by positivity) (by linarith) 2
    · have hρ' : ρ = (Sign.positive.apply 1 : ℚ) * ρ := by simp [Sign.apply]
      rw [hρ']
      refine Rounded.of_magnitude (isFinite_of_bounded (by rw [hsq, hu]; exact hb)) ha
        (by rw [value_eq_valueOf, hsq, hu]; exact hv) hρpos (error_le ?_ herr)
      linarith

/-! ### Enclosures -/

/-- A finite double whose value lies from `lo` to `hi`. -/
structure Within (x : Float) (lo hi : ℚ) : Prop where
  finite : isFinite x = true
  lo_le : lo ≤ value x
  le_hi : value x ≤ hi

/-- What one rounding adds to an enclosure of values of size at most `M`. -/
def slack (M : ℚ) : ℚ := M / 2 ^ 50 + tinyError

theorem slack_nonneg {M : ℚ} (hM : 0 ≤ M) : 0 ≤ slack M :=
  add_nonneg (by positivity) tinyError_pos.le

theorem le_limit {q : ℚ} (h : q ≤ 2 ^ 64) : q ≤ 2 ^ 1022 :=
  h.trans (pow_le_pow_right₀ (by norm_num) (by norm_num))

namespace Within

variable {x y : Float} {a b c d M : ℚ}

theorem weaken (h : Within x a b) {p q : ℚ} (hp : p ≤ a) (hq : b ≤ q) : Within x p q :=
  ⟨h.finite, hp.trans h.lo_le, h.le_hi.trans hq⟩

theorem of_value (hx : isFinite x = true) : Within x (value x) (value x) := ⟨hx, le_rfl, le_rfl⟩

/-- A rounding of a value from `lo` to `hi`, of size at most `M`, lies within the slack of
one rounding of that range. -/
theorem of_rounded {w : ℚ} (h : Rounded x w) {lo hi : ℚ} (hlo : lo ≤ w) (hhi : w ≤ hi)
    (hM : |w| ≤ M) : Within x (lo - slack M) (hi + slack M) := by
  have hnear := abs_le.1 h.near
  have : |w| / 2 ^ 50 ≤ M / 2 ^ 50 := by gcongr
  refine ⟨h.finite, ?_, ?_⟩ <;> unfold slack <;> linarith [hnear.1, hnear.2]

theorem add (hx : Within x a b) (hy : Within y c d) (h₁ : -M ≤ a + c) (h₂ : b + d ≤ M)
    (hM : M ≤ 2 ^ 64) : Within (x + y) (a + c - slack M) (b + d + slack M) := by
  have hlo : a + c ≤ value x + value y := add_le_add hx.lo_le hy.lo_le
  have hhi : value x + value y ≤ b + d := add_le_add hx.le_hi hy.le_hi
  have hw : |value x + value y| ≤ M := abs_le.2 ⟨h₁.trans hlo, hhi.trans h₂⟩
  exact of_rounded (Rounded.add hx.finite hy.finite (le_limit (hw.trans hM))) hlo hhi hw

theorem sub (hx : Within x a b) (hy : Within y c d) (h₁ : -M ≤ a - d) (h₂ : b - c ≤ M)
    (hM : M ≤ 2 ^ 64) : Within (x - y) (a - d - slack M) (b - c + slack M) := by
  have hlo : a - d ≤ value x - value y := sub_le_sub hx.lo_le hy.le_hi
  have hhi : value x - value y ≤ b - c := sub_le_sub hx.le_hi hy.lo_le
  have hw : |value x - value y| ≤ M := abs_le.2 ⟨h₁.trans hlo, hhi.trans h₂⟩
  exact of_rounded (Rounded.sub hx.finite hy.finite (le_limit (hw.trans hM))) hlo hhi hw

/-- A sum of two values not below zero is not below zero. -/
theorem add_of_nonneg (hx : Within x a b) (hy : Within y c d) (ha : 0 ≤ a) (hc : 0 ≤ c)
    (hbd : b + d ≤ M) (hM : M ≤ 2 ^ 64) : Within (x + y) 0 (b + d + slack M) := by
  have h0 : 0 ≤ value x + value y := add_nonneg (ha.trans hx.lo_le) (hc.trans hy.lo_le)
  have hhi : value x + value y ≤ b + d := add_le_add hx.le_hi hy.le_hi
  have hw : |value x + value y| ≤ M := by
    rw [abs_of_nonneg h0]
    exact hhi.trans hbd
  have hr := Rounded.add hx.finite hy.finite (le_limit (hw.trans hM))
  exact ⟨hr.finite, hr.nonneg h0, (of_rounded hr h0 hhi hw).le_hi⟩

/-- A sum of a value not below zero and one well above the least subnormal is positive:
at least half the second. -/
theorem add_of_pos (hx : Within x a b) (hy : Within y c d) (ha : 0 ≤ a) (hc : 4 * tinyError ≤ c)
    (hbd : b + d ≤ M) (hM : M ≤ 2 ^ 64) : Within (x + y) (c / 2) (b + d + slack M) := by
  have hlo : c ≤ value x + value y := by linarith [hx.lo_le, hy.lo_le]
  have hhi : value x + value y ≤ b + d := add_le_add hx.le_hi hy.le_hi
  have ht := tinyError_pos
  have h0 : 0 ≤ value x + value y := by linarith
  have hw : |value x + value y| ≤ M := by
    rw [abs_of_nonneg h0]
    exact hhi.trans hbd
  have hr := Rounded.add hx.finite hy.finite (le_limit (hw.trans hM))
  have hnear := abs_le.1 hr.near
  rw [abs_of_nonneg h0] at hnear
  have h50 : (value x + value y) / 2 ^ 50 ≤ (value x + value y) / 4 := by
    gcongr
    norm_num
  exact ⟨hr.finite, by linarith [hnear.1], (of_rounded hr h0 hhi hw).le_hi⟩

/-- A product of two values not below zero. -/
theorem mul_of_nonneg (hx : Within x a b) (hy : Within y c d) (ha : 0 ≤ a) (hc : 0 ≤ c)
    (hbd : b * d ≤ M) (hM : M ≤ 2 ^ 64) : Within (x * y) (a * c - slack M) (b * d + slack M) := by
  have hx0 := ha.trans hx.lo_le
  have hy0 := hc.trans hy.lo_le
  have hlo : a * c ≤ value x * value y := mul_le_mul hx.lo_le hy.lo_le hc hx0
  have hhi : value x * value y ≤ b * d := mul_le_mul hx.le_hi hy.le_hi hy0 (hx0.trans hx.le_hi)
  have hw : |value x * value y| ≤ M := by
    rw [abs_of_nonneg (mul_nonneg hx0 hy0)]
    exact hhi.trans hbd
  exact of_rounded (Rounded.mul hx.finite hy.finite (le_limit (hw.trans hM))) hlo hhi hw

/-- A product of two values not below zero is not below zero. -/
theorem mul_of_nonneg' (hx : Within x a b) (hy : Within y c d) (ha : 0 ≤ a) (hc : 0 ≤ c)
    (hbd : b * d ≤ M) (hM : M ≤ 2 ^ 64) : Within (x * y) 0 (b * d + slack M) := by
  have hx0 := ha.trans hx.lo_le
  have hy0 := hc.trans hy.lo_le
  have hw : value x * value y ≤ M :=
    (mul_le_mul hx.le_hi hy.le_hi hy0 (hx0.trans hx.le_hi)).trans hbd
  have hr := Rounded.mul hx.finite hy.finite
    (le_limit ((abs_of_nonneg (mul_nonneg hx0 hy0)).le.trans (hw.trans hM)))
  exact ⟨hr.finite, hr.nonneg (mul_nonneg hx0 hy0), (mul_of_nonneg hx hy ha hc hbd hM).le_hi⟩

/-- A product of two positive values, its size kept to within a factor of two: the
product is far enough above the least subnormal that its rounding stays positive. -/
theorem mul_of_pos (hx : Within x a b) (hy : Within y c d) (ha : 0 ≤ a) (hc : 0 ≤ c)
    (ht : 4 * tinyError ≤ a * c) (hbd : b * d ≤ 2 ^ 64) : Within (x * y) (a * c / 2) (2 * (b * d)) := by
  have hx0 := ha.trans hx.lo_le
  have hy0 := hc.trans hy.lo_le
  have hlo : a * c ≤ value x * value y := mul_le_mul hx.lo_le hy.lo_le hc hx0
  have hhi : value x * value y ≤ b * d := mul_le_mul hx.le_hi hy.le_hi hy0 (hx0.trans hx.le_hi)
  have hw : |value x * value y| = value x * value y := abs_of_nonneg (mul_nonneg hx0 hy0)
  have hr := Rounded.mul hx.finite hy.finite (le_limit (by rw [hw]; linarith))
  have hnear := abs_le.1 hr.near
  rw [hw] at hnear
  have h50 : value x * value y / 2 ^ 50 ≤ value x * value y / 4 := by
    gcongr
    norm_num
  refine ⟨hr.finite, ?_, ?_⟩ <;> linarith [hnear.1, hnear.2]

/-- A square is not below zero. -/
theorem mul_self (hx : Within x (-a) a) (haa : a * a ≤ M) (hM : M ≤ 2 ^ 64) :
    Within (x * x) 0 (a * a + slack M) := by
  have hsq : value x * value x ≤ a * a := by
    have h := abs_le.2 ⟨hx.lo_le, hx.le_hi⟩
    nlinarith [abs_nonneg (value x), abs_mul_abs_self (value x)]
  have h0 : 0 ≤ value x * value x := mul_self_nonneg _
  have hw : |value x * value x| ≤ M := by rw [abs_of_nonneg h0]; exact hsq.trans haa
  have hr := Rounded.mul hx.finite hx.finite (le_limit (hw.trans hM))
  exact ⟨hr.finite, hr.nonneg h0, (of_rounded hr h0 hsq hw).le_hi.trans (by linarith)⟩

/-- A product of two values of bounded size. -/
theorem mul_of_abs (hx : Within x (-a) a) (hy : Within y (-b) b) (hab : a * b ≤ M)
    (hM : M ≤ 2 ^ 64) : Within (x * y) (-(a * b) - slack M) (a * b + slack M) := by
  have hxa := abs_le.2 ⟨hx.lo_le, hx.le_hi⟩
  have hyb := abs_le.2 ⟨hy.lo_le, hy.le_hi⟩
  have hw : |value x * value y| ≤ a * b := by
    rw [abs_mul]
    exact mul_le_mul hxa hyb (abs_nonneg _) ((abs_nonneg _).trans hxa)
  have hr := Rounded.mul hx.finite hy.finite (le_limit ((hw.trans hab).trans hM))
  exact of_rounded hr (neg_le_of_abs_le hw) (le_of_abs_le hw) (hw.trans hab)

/-- A quotient of a value not below zero by a positive one. -/
theorem div_of_nonneg (hx : Within x a b) (hy : Within y c d) (ha : 0 ≤ a) (hc : 0 < c)
    (hbc : b / c ≤ M) (hM : M ≤ 2 ^ 64) : Within (x / y) (a / d - slack M) (b / c + slack M) := by
  have hx0 := ha.trans hx.lo_le
  have hy0 := hc.trans_le hy.lo_le
  have hlo : a / d ≤ value x / value y := div_le_div₀ hx0 hx.lo_le hy0 hy.le_hi
  have hhi : value x / value y ≤ b / c := div_le_div₀ (hx0.trans hx.le_hi) hx.le_hi hc hy.lo_le
  have hw : |value x / value y| ≤ M := by
    rw [abs_of_nonneg (div_nonneg hx0 hy0.le)]
    exact hhi.trans hbc
  exact of_rounded (Rounded.div hx.finite hy.finite hy0.ne' (le_limit (hw.trans hM))) hlo hhi hw

/-- A quotient of a value of bounded size by a positive one. -/
theorem div_of_abs (hx : Within x (-a) a) (hy : Within y c d) (hc : 0 < c) (hac : a / c ≤ M)
    (hM : M ≤ 2 ^ 64) : Within (x / y) (-(a / c) - slack M) (a / c + slack M) := by
  have hxa := abs_le.2 ⟨hx.lo_le, hx.le_hi⟩
  have hy0 := hc.trans_le hy.lo_le
  have hw : |value x / value y| ≤ a / c := by
    rw [abs_div, abs_of_pos hy0]
    exact div_le_div₀ ((abs_nonneg _).trans hxa) hxa hc hy.lo_le
  have hr := Rounded.div hx.finite hy.finite hy0.ne' (le_limit ((hw.trans hac).trans hM))
  exact of_rounded hr (neg_le_of_abs_le hw) (le_of_abs_le hw) (hw.trans hac)

end Within

end LaneGate.Decimal
