import Mathlib
import LaneGate.Decimal.Binary
/-!
# The order of doubles

Lean's logical model of a double unpacks its bits into not-a-number, a signed
infinity, a signed zero or a signed finite value `m · 2^e`, and compares and
subtracts on that form. This module reads the order of doubles off that model.

Every bit pattern but not-a-number unpacks to a `Canonical` value, and canonical
values are compared as their ranks are (`compare_eq_rankOf`): a finite value counts
its multiples of the least subnormal, the infinities lie beyond every finite value.
The model's subtraction rounds the exact difference once, which keeps its sign, so
the difference of two doubles is negative exactly when the first is less
(`negative_sub`). For doubles this is `sub_lt_zero_iff`, and `lt_iff_rank_lt` puts
`<` on an integer scale: on doubles other than not-a-number it is a strict weak
order, and a comparison that subtracts two such doubles is consistent.
-/

namespace LaneGate.Decimal

open Float.Model UnpackedFloat

/-- The double format. -/
abbrev binary64 : Format := Format.binary64

theorem targetExponent_eq (t : Int) : binary64.targetExponent t = max (t - 53) (-1074) := rfl

theorem exponentBias_binary64 : binary64.exponentBias = 1023 := rfl

/-! ## Unpacked bits -/

/-- A double as its bits unpack: an infinity, a zero, or a finite value `m · 2^e` with
a mantissa below `2^53` and an exponent from `-1074` to `971`, the mantissa of full
width unless the exponent is the least. Not-a-number is left out. -/
inductive Canonical : UnpackedFloat → Prop
  | infinity (s : Sign) : Canonical (.infinity s)
  | zero (s : Sign) : Canonical (.zero s)
  | finite (s : Sign) (m : Nat) (e : Int) (h : 0 < m) (hm : m < 2 ^ 53) (hlo : -1074 ≤ e)
      (hhi : e ≤ 971) (hfull : -1074 < e → 2 ^ 52 ≤ m) : Canonical (.finite s m e h)

/-- Every bit pattern but not-a-number unpacks to a canonical value. -/
theorem canonical_unpack (b : BitVec binary64.numBits) (h : (UnpackedFloat.unpack binary64 b).isNaN = false) :
    Canonical (UnpackedFloat.unpack binary64 b) := by
  unfold UnpackedFloat.unpack at h ⊢
  dsimp only at h ⊢
  split
  · split
    · exact .infinity _
    · rw [if_pos ‹_›, if_neg ‹_›] at h
      cases h
  · rename_i hnotinf
    have hexp : (unpackExponent b : BitVec 11).toNat ≠ 2047 := by
      intro heq
      apply hnotinf
      rw [BitVec.neg_one_eq_allOnes, ← BitVec.toNat_inj, BitVec.toNat_allOnes]
      exact heq
    have hmantlt : (unpackMantissa b).toNat < 2 ^ 52 := (unpackMantissa b).isLt
    split
    · rename_i hzero
      split
      · exact .zero _
      · -- subnormal: the least exponent, no hidden bit
        have hz : (unpackExponent b : BitVec 11).toNat = 0 := by rw [hzero]; rfl
        refine .finite _ _ _ _ (by omega) ?_ ?_ ?_ <;> simp only [hz, exponentBias_binary64] <;> omega
    · -- normal: the hidden bit set
      rename_i hzero
      have hexplt : (unpackExponent b : BitVec 11).toNat < 2 ^ 11 := (unpackExponent b).isLt
      have hnz : (unpackExponent b : BitVec 11).toNat ≠ 0 := by
        intro heq
        apply hzero
        rw [← BitVec.toNat_inj]
        exact heq
      have hmant : (1#1 ++ unpackMantissa b).toNat = 2 ^ 52 + (unpackMantissa b).toNat := by
        rw [BitVec.toNat_append, ← Nat.shiftLeft_add_eq_or_of_lt hmantlt, Nat.shiftLeft_eq]
        simp
      refine .finite _ _ _ _ ?_ ?_ ?_ ?_ <;> simp only [hmant, exponentBias_binary64] <;> omega

/-! ## Rounding -/

theorem mantissa_shiftRight (em : ExtendedMantissa) (k : Nat) :
    (em >>> k).mantissa = em.mantissa / 2 ^ k := by
  induction k generalizing em with
  | zero => simp [HShiftRight.hShiftRight, Nat.repeat]
  | succ k ih =>
    change (ExtendedMantissa.shiftRightOne (em >>> k)).mantissa = _
    simp only [ExtendedMantissa.shiftRightOne, ih, Nat.div_div_eq_div_mul, Nat.pow_succ]

theorem roundedMantissa_bounds (em : ExtendedMantissa) :
    em.mantissa ≤ em.roundedMantissa ∧ em.roundedMantissa ≤ em.mantissa + 1 := by
  rcases em with ⟨m, _ | _, _ | _⟩ <;>
    simp only [ExtendedMantissa.roundedMantissa, ExtendedMantissa.accuracy,
      Accuracy.roundToNearestEven] <;> omega

theorem log2_shiftLeft {m : Nat} (hm : 0 < m) (k : Nat) : (m <<< k).log2 = m.log2 + k := by
  have hpos : m <<< k ≠ 0 := by
    rw [Nat.shiftLeft_eq]
    exact Nat.mul_ne_zero (by omega) (Nat.pos_iff_ne_zero.1 (Nat.two_pow_pos k))
  apply Nat.le_antisymm
  · have hlt : m * 2 ^ k < 2 ^ (m.log2 + 1) * 2 ^ k :=
      Nat.mul_lt_mul_of_pos_right Nat.lt_log2_self (Nat.two_pow_pos k)
    rw [← Nat.pow_add, ← Nat.shiftLeft_eq, show m.log2 + 1 + k = m.log2 + k + 1 by omega] at hlt
    have := (Nat.log2_lt hpos).2 hlt
    omega
  · refine (Nat.le_log2 hpos).2 ?_
    rw [Nat.shiftLeft_eq, Nat.pow_add]
    exact Nat.mul_le_mul_right _ (Nat.log2_self_le (by omega))

/-- A positive mantissa below `2^(53 + j)` and at least `2^(52 + j)`, shifted `j` places: a
mantissa of full width. -/
theorem div_pow_bounds {m j : Nat} (hm : 0 < m) (hj : m.log2 = 52 + j) :
    2 ^ 52 ≤ m / 2 ^ j ∧ m / 2 ^ j < 2 ^ 53 := by
  constructor
  · refine (Nat.le_div_iff_mul_le (Nat.two_pow_pos j)).2 ?_
    rw [← Nat.pow_add, ← hj]
    exact Nat.log2_self_le (by omega)
  · refine (Nat.div_lt_iff_lt_mul (Nat.two_pow_pos j)).2 ?_
    rw [← Nat.pow_add, show 53 + j = m.log2 + 1 by omega]
    exact Nat.lt_log2_self

theorem lt_two_pow_of_log2 {m n : Nat} (h : m.log2 < n) : m < 2 ^ n := by
  rcases Nat.eq_zero_or_pos m with rfl | hm
  · exact Nat.two_pow_pos n
  · exact (Nat.log2_lt (by omega)).1 h

theorem log2_lt_of_lt {m n : Nat} (hm : 0 < m) (h : m < 2 ^ n) : m.log2 < n :=
  (Nat.log2_lt (by omega)).2 h

theorem shiftToTarget_mantissa (m : Nat) (e : Int) :
    (shiftToTargetExponent binary64 m e .exact).1.mantissa =
      m / 2 ^ (binary64.targetExponent (totalExponent m e) - e).toNat := by
  simp only [shiftToTargetExponent, shiftToExponent, mantissa_shiftRight,
    ExtendedMantissa.ofMantissaAndAccuracy]

theorem shiftToTarget_exponent (m : Nat) (e : Int) :
    (shiftToTargetExponent binary64 m e .exact).2 =
      e + (binary64.targetExponent (totalExponent m e) - e).toNat := rfl

/-- The second shift of a rounding: a mantissa rounded up to `2^53` loses one place,
any other stays as it is. -/
theorem second_shift {r : Nat} {e : Int} (hr : 1 ≤ r) (hr' : r ≤ 2 ^ 53) (he : -1074 ≤ e) :
    1 ≤ (shiftToTargetExponent binary64 r e .exact).1.mantissa ∧
      (shiftToTargetExponent binary64 r e .exact).1.mantissa < 2 ^ 53 ∧
      -1074 ≤ (shiftToTargetExponent binary64 r e .exact).2 := by
  rw [shiftToTarget_mantissa, shiftToTarget_exponent, targetExponent_eq]
  simp only [totalExponent]
  by_cases hfull : r = 2 ^ 53
  · subst hfull
    rw [Nat.log2_two_pow]
    have hj : (max ((53 : Nat) + 1 + e - 53) (-1074) - e).toNat = 1 := by omega
    rw [hj]
    refine ⟨by decide, by decide, by omega⟩
  · have hlog : r.log2 < 53 := log2_lt_of_lt (by omega) (by omega)
    have hj : (max ((r.log2 : Int) + 1 + e - 53) (-1074) - e).toNat = 0 := by omega
    rw [hj]
    refine ⟨by simpa using hr, by simpa using (by omega : r < 2 ^ 53), by omega⟩

/-- The first shift of a rounding: a positive mantissa at an exponent no lower than the
least, moved to its target exponent, keeps between 1 and `2^53 - 1` of its value. -/
theorem first_shift {m k : Nat} {e : Int} (hm : 0 < m) (he : -1074 ≤ e)
    (hk : k = (e - binary64.targetExponent (totalExponent m e)).toNat) :
    1 ≤ (shiftToTargetExponent binary64 (m <<< k) (e - k) .exact).1.mantissa ∧
      (shiftToTargetExponent binary64 (m <<< k) (e - k) .exact).1.mantissa < 2 ^ 53 ∧
      -1074 ≤ (shiftToTargetExponent binary64 (m <<< k) (e - k) .exact).2 := by
  have hlog := log2_shiftLeft hm k
  have htotal : totalExponent (m <<< k) (e - k) = totalExponent m e := by
    simp only [totalExponent, hlog]; omega
  rw [shiftToTarget_mantissa, shiftToTarget_exponent, htotal]
  rw [targetExponent_eq] at hk ⊢
  simp only [totalExponent] at hk ⊢
  by_cases hcase : e ≤ max ((m.log2 : Int) + 1 + e - 53) (-1074)
  · -- the exponent is raised: `j` places are dropped from `m` itself
    have hk0 : k = 0 := by omega
    subst hk0
    simp only [Nat.shiftLeft_zero, Int.natCast_zero, Int.sub_zero]
    by_cases hj : max ((m.log2 : Int) + 1 + e - 53) (-1074) - e = 0
    · have hlt : m < 2 ^ 53 := lt_two_pow_of_log2 (by omega)
      rw [show (max ((m.log2 : Int) + 1 + e - 53) (-1074) - e).toNat = 0 by omega]
      refine ⟨by simp only [Nat.pow_zero, Nat.div_one]; omega,
        by simp only [Nat.pow_zero, Nat.div_one]; omega, by omega⟩
    · obtain ⟨j, hjdef⟩ : ∃ j : Nat, (max ((m.log2 : Int) + 1 + e - 53) (-1074) - e).toNat = j :=
        ⟨_, rfl⟩
      have hlogj : m.log2 = 52 + j := by omega
      obtain ⟨hlo, hhi⟩ := div_pow_bounds hm hlogj
      rw [hjdef]
      refine ⟨by omega, hhi, by omega⟩
  · -- the exponent is lowered: `m` gains `k` places and fits
    have hj : (max ((m.log2 : Int) + 1 + e - 53) (-1074) - (e - k)).toNat = 0 := by omega
    rw [hj]
    have hlt : m <<< k < 2 ^ 53 := lt_two_pow_of_log2 (by omega)
    have hpos : 0 < m <<< k := by
      rw [Nat.shiftLeft_eq]; exact Nat.mul_pos hm (Nat.two_pow_pos k)
    refine ⟨by simp only [Nat.pow_zero, Nat.div_one]; omega,
      by simp only [Nat.pow_zero, Nat.div_one]; omega, by omega⟩

/-- Rounding a positive mantissa at an exponent no lower than the least gives a finite
value of the same sign, with a mantissa below `2^53` and an exponent no lower than the
least (it may be too large for a double, which packs as an infinity). -/
theorem round_finite (s : Sign) {m : Nat} {e : Int} (hm : 0 < m) (he : -1074 ≤ e) :
    ∃ (m' : Nat) (e' : Int) (h : 0 < m'), round binary64 s m e = .finite s m' e' h ∧ m' < 2 ^ 53 ∧ -1074 ≤ e' := by
  unfold UnpackedFloat.round decreaseExponent roundWithAccuracy
  dsimp only
  obtain ⟨h1, h2, h3⟩ := first_shift (k := (e - binary64.targetExponent (totalExponent m e)).toNat)
    hm he rfl
  generalize (e - binary64.targetExponent (totalExponent m e)).toNat = k at h1 h2 h3 ⊢
  generalize shiftToTargetExponent binary64 (m <<< k) (e - k) .exact = first at h1 h2 h3 ⊢
  obtain ⟨em, e₁⟩ := first
  dsimp only at h1 h2 h3 ⊢
  have hr := roundedMantissa_bounds em
  obtain ⟨g1, g2, g3⟩ := second_shift (r := em.roundedMantissa) (e := e₁) (by omega) (by omega) h3
  generalize shiftToTargetExponent binary64 em.roundedMantissa e₁ .exact = second at g1 g2 g3 ⊢
  obtain ⟨fm, fe⟩ := second
  dsimp only at g1 g2 g3 ⊢
  rw [dif_neg (by omega)]
  exact ⟨_, _, _, rfl, g2, g3⟩

/-! ## Packing -/

theorem unpackSign_packComponents {s : Sign} {ev : BitVec 11} {mv : BitVec 52} :
    unpackSign (packComponents binary64 s ev mv) = s.toBitVec := by
  simp only [unpackSign, packComponents, BitVec.extractLsb]
  rw [BitVec.extractLsb'_append_eq_of_le (by omega), BitVec.extractLsb'_append_eq_of_le (by omega)]
  cases s <;> rfl

theorem ofBitVec_toBitVec (s : Sign) : Sign.ofBitVec s.toBitVec = s := by
  cases s <;> rfl

/-- Whether an unpacked value is below zero: a negative infinity or a negative finite
value. -/
def negative : UnpackedFloat → Bool
  | .infinity .negative => true
  | .finite .negative .. => true
  | _ => false

/-- A finite value with a mantissa below `2^53` and an exponent no lower than the least
packs to bits that unpack to a value of the same sign: finite, or an infinity when the
exponent is too large. -/
theorem negative_unpack_pack_finite (s : Sign) {m : Nat} {e : Int} (h : 0 < m) (hm : m < 2 ^ 53)
    (he : -1074 ≤ e) :
    negative (UnpackedFloat.unpack binary64 (UnpackedFloat.pack binary64 (.finite s m e h))) =
      negative (.finite s m e h) := by
  unfold UnpackedFloat.pack
  dsimp only
  split
  · cases s <;> rfl
  · rename_i hbig
    split
    · -- a normal value
      unfold UnpackedFloat.unpack
      simp only [unpackMantissa_packComponents, unpackExponent_packComponents,
        unpackSign_packComponents, ofBitVec_toBitVec]
      rw [exponentBias_binary64] at hbig ⊢
      have hne1 : BitVec.ofNat 11 (e + (1023 : Nat) + (52 : Nat)).toNat ≠ -1#11 := by
        intro heq
        have := congrArg BitVec.toNat heq
        simp only [BitVec.toNat_ofNat, BitVec.neg_one_eq_allOnes, BitVec.toNat_allOnes] at this
        omega
      have hne0 : BitVec.ofNat 11 (e + (1023 : Nat) + (52 : Nat)).toNat ≠ 0#11 := by
        intro heq
        have := congrArg BitVec.toNat heq
        simp only [BitVec.toNat_ofNat] at this
        omega
      rw [if_neg hne1, if_neg hne0]
      cases s <;> rfl
    · -- a subnormal value
      unfold UnpackedFloat.unpack
      simp only [unpackMantissa_packComponents, unpackExponent_packComponents,
        unpackSign_packComponents, ofBitVec_toBitVec]
      rename_i hwidth
      have hsmall : m < 2 ^ 52 := lt_two_pow_of_log2 (by
        have := log2_lt_of_lt h hm
        change ¬m.log2 + 1 = 53 at hwidth
        omega)
      have hm0 : BitVec.ofNat 52 m ≠ 0#52 := by
        intro heq
        have := congrArg BitVec.toNat heq
        simp only [BitVec.toNat_ofNat] at this
        omega
      rw [if_neg (by decide), if_pos trivial, dif_neg hm0]
      cases s <;> rfl

theorem negative_unpack_pack_zero (s : Sign) :
    negative (UnpackedFloat.unpack binary64 (UnpackedFloat.pack binary64 (.zero s))) = false := by
  cases s <;> rfl

/-! ## Order -/

/-- A rank past every finite double's. -/
def beyond : Int := ((2 ^ 2100 : Nat) : Int)

/-- The position of an unpacked value on the line of doubles: a finite value counted in
units of the least subnormal `2^-1074`, the zeros at 0, and the infinities beyond every
finite double. -/
def rankOf : UnpackedFloat → Int
  | .infinity .positive => beyond
  | .infinity .negative => -beyond
  | .zero _ => 0
  | .finite s m e _ => s.apply ((m * 2 ^ (e + 1074).toNat : Nat) : Int)
  | .notANumber => 0

/-- A canonical finite value lies strictly between the infinities. -/
theorem magnitude_lt {m : Nat} {e : Int} (hm : m < 2 ^ 53) (hhi : e ≤ 971) :
    ((m * 2 ^ (e + 1074).toNat : Nat) : Int) < beyond := by
  suffices m * 2 ^ (e + 1074).toNat < 2 ^ 2100 by unfold beyond; exact Int.ofNat_lt.2 this
  have hk : 2 ^ (e + 1074).toNat ≤ 2 ^ 2045 := Nat.pow_le_pow_right (by decide) (by omega)
  calc m * 2 ^ (e + 1074).toNat < 2 ^ 53 * 2 ^ 2045 :=
        Nat.mul_lt_mul_of_lt_of_le hm hk (Nat.two_pow_pos _)
    _ ≤ 2 ^ 2100 := by rw [← Nat.pow_add]; exact Nat.pow_le_pow_right (by decide) (by decide)

/-- Comparing canonical finite values of one sign by exponent, then by mantissa, is
comparing their magnitudes. -/
theorem compare_magnitude {m₁ m₂ : Nat} {e₁ e₂ : Int} (hm₁ : m₁ < 2 ^ 53) (hm₂ : m₂ < 2 ^ 53)
    (hlo₁ : -1074 ≤ e₁) (hlo₂ : -1074 ≤ e₂) (hfull₁ : -1074 < e₁ → 2 ^ 52 ≤ m₁)
    (hfull₂ : -1074 < e₂ → 2 ^ 52 ≤ m₂) :
    (compare e₁ e₂).then (compare m₁ m₂) =
      compare (m₁ * 2 ^ (e₁ + 1074).toNat) (m₂ * 2 ^ (e₂ + 1074).toNat) := by
  -- a value of a larger exponent has a full mantissa, so it is the larger
  have hbelow : ∀ {m m' : Nat} {e e' : Int}, m < 2 ^ 53 → -1074 ≤ e → e < e' → 2 ^ 52 ≤ m' →
      m * 2 ^ (e + 1074).toNat < m' * 2 ^ (e' + 1074).toNat := by
    intro m m' e e' hm he hee' hm'
    have hpow : 2 ^ (e + 1074).toNat * 2 ≤ 2 ^ (e' + 1074).toNat := by
      rw [← Nat.pow_succ]; exact Nat.pow_le_pow_right (by decide) (by omega)
    calc m * 2 ^ (e + 1074).toNat < 2 ^ 53 * 2 ^ (e + 1074).toNat :=
          Nat.mul_lt_mul_of_pos_right hm (Nat.two_pow_pos _)
      _ = 2 ^ 52 * (2 ^ (e + 1074).toNat * 2) := by rw [Nat.pow_succ]; ac_rfl
      _ ≤ m' * 2 ^ (e' + 1074).toNat := Nat.mul_le_mul hm' hpow
  rcases Int.lt_trichotomy e₁ e₂ with h | rfl | h
  · rw [Int.compare_eq_lt.2 h, Nat.compare_eq_lt.2 (hbelow hm₁ hlo₁ h (hfull₂ (by omega)))]
    rfl
  · have hpos := Nat.two_pow_pos (e₁ + 1074).toNat
    rw [show compare e₁ e₁ = .eq from Int.compare_eq_eq.2 rfl]
    rcases Nat.lt_trichotomy m₁ m₂ with hm | rfl | hm
    · rw [Nat.compare_eq_lt.2 hm, Nat.compare_eq_lt.2 (Nat.mul_lt_mul_of_pos_right hm hpos)]; rfl
    · rw [Nat.compare_eq_eq.2 rfl, Nat.compare_eq_eq.2 rfl]; rfl
    · rw [Nat.compare_eq_gt.2 hm, Nat.compare_eq_gt.2 (Nat.mul_lt_mul_of_pos_right hm hpos)]; rfl
  · rw [Int.compare_eq_gt.2 h, Nat.compare_eq_gt.2 (hbelow hm₂ hlo₂ h (hfull₁ (by omega)))]
    rfl

theorem rankOf_finite_bounds {s : Sign} {m : Nat} {e : Int} {h : 0 < m} (hm : m < 2 ^ 53)
    (hhi : e ≤ 971) :
    -beyond < rankOf (.finite s m e h) ∧ rankOf (.finite s m e h) < beyond := by
  have hb := magnitude_lt hm hhi
  cases s <;> simp only [rankOf, Sign.apply] <;> omega

theorem rankOf_finite_pos {m : Nat} {e : Int} (h : 0 < m) :
    0 < ((m * 2 ^ (e + 1074).toNat : Nat) : Int) := by
  have := Nat.mul_pos h (Nat.two_pow_pos (e + 1074).toNat)
  omega

theorem compare_natCast (a b : Nat) : compare (a : Int) (b : Int) = compare a b := by
  rcases Nat.lt_trichotomy a b with h | rfl | h
  · rw [Nat.compare_eq_lt.2 h, Int.compare_eq_lt.2 (by omega)]
  · rw [Nat.compare_eq_eq.2 rfl, Int.compare_eq_eq.2 rfl]
  · rw [Nat.compare_eq_gt.2 h, Int.compare_eq_gt.2 (by omega)]

theorem compare_neg (x y : Int) : compare (-x) (-y) = (compare x y).swap := by
  rw [Int.compare_swap]
  rcases Int.lt_trichotomy x y with h | rfl | h
  · rw [Int.compare_eq_gt.2 (by omega), Int.compare_eq_gt.2 h]
  · rw [Int.compare_eq_eq.2 rfl, Int.compare_eq_eq.2 rfl]
  · rw [Int.compare_eq_lt.2 (by omega), Int.compare_eq_lt.2 h]

theorem beyond_pos : 0 < beyond := by
  unfold beyond
  exact Int.natCast_pos.2 (Nat.two_pow_pos 2100)

/-- The model compares canonical values as their ranks compare. -/
theorem compare_eq_rankOf {u v : UnpackedFloat} (hu : Canonical u) (hv : Canonical v) :
    u.compare v = some (compare (rankOf u) (rankOf v)) := by
  cases hu with
  | infinity s =>
    cases hv with
    | infinity t =>
      have := beyond_pos
      cases s <;> cases t
      · rw [Int.compare_eq_eq.2 rfl]; rfl
      · rw [Int.compare_eq_lt.2 (by simp only [rankOf]; omega)]; rfl
      · rw [Int.compare_eq_gt.2 (by simp only [rankOf]; omega)]; rfl
      · rw [Int.compare_eq_eq.2 rfl]; rfl
    | zero t =>
      have := beyond_pos
      cases s
      · rw [Int.compare_eq_lt.2 (by simp only [rankOf]; omega)]; rfl
      · rw [Int.compare_eq_gt.2 (by simp only [rankOf]; omega)]; rfl
    | finite t m e h hm hlo hhi hfull =>
      obtain ⟨hb₁, hb₂⟩ := rankOf_finite_bounds (s := t) (h := h) hm hhi
      cases s
      · rw [show rankOf (.infinity .negative) = -beyond from rfl, Int.compare_eq_lt.2 hb₁]; rfl
      · rw [show rankOf (.infinity .positive) = beyond from rfl, Int.compare_eq_gt.2 hb₂]; rfl
  | zero s =>
    cases hv with
    | infinity t =>
      have := beyond_pos
      cases t
      · rw [Int.compare_eq_gt.2 (by simp only [rankOf]; omega)]; cases s <;> rfl
      · rw [Int.compare_eq_lt.2 (by simp only [rankOf]; omega)]; cases s <;> rfl
    | zero t => cases s <;> cases t <;> rfl
    | finite t m e h hm hlo hhi hfull =>
      have hp := rankOf_finite_pos (e := e) h
      cases t
      · rw [Int.compare_eq_gt.2 (by simp only [rankOf, Sign.apply]; omega)]
        cases s <;> rfl
      · rw [Int.compare_eq_lt.2 (by simp only [rankOf, Sign.apply]; omega)]
        cases s <;> rfl
  | finite s m e h hm hlo hhi hfull =>
    cases hv with
    | infinity t =>
      obtain ⟨hb₁, hb₂⟩ := rankOf_finite_bounds (s := s) (h := h) hm hhi
      cases t
      · rw [show rankOf (.infinity .negative) = -beyond from rfl, Int.compare_eq_gt.2 hb₁]
        cases s <;> rfl
      · rw [show rankOf (.infinity .positive) = beyond from rfl, Int.compare_eq_lt.2 hb₂]
        cases s <;> rfl
    | zero t =>
      have hp := rankOf_finite_pos (e := e) h
      cases s
      · rw [Int.compare_eq_lt.2 (by simp only [rankOf, Sign.apply]; omega)]
        cases t <;> rfl
      · rw [Int.compare_eq_gt.2 (by simp only [rankOf, Sign.apply]; omega)]
        cases t <;> rfl
    | finite t m' e' h' hm' hlo' hhi' hfull' =>
      have hc := compare_magnitude hm hm' hlo hlo' hfull hfull'
      have hp := rankOf_finite_pos (e := e) h
      have hp' := rankOf_finite_pos (e := e') h'
      cases s <;> cases t
      · -- both negative: the order of magnitudes reversed
        show some _ = some (compare (-_) (-_))
        rw [compare_neg, compare_natCast, ← hc]
      · rw [Int.compare_eq_lt.2 (by simp only [rankOf, Sign.apply]; omega)]; rfl
      · rw [Int.compare_eq_gt.2 (by simp only [rankOf, Sign.apply]; omega)]; rfl
      · show some _ = some (compare ((_ : Nat) : Int) ((_ : Nat) : Int))
        rw [compare_natCast, ← hc]

theorem compare_beq_lt (a b : Int) : (some (compare a b) == some Ordering.lt) = decide (a < b) := by
  rcases Int.lt_trichotomy a b with h | rfl | h
  · rw [Int.compare_eq_lt.2 h, decide_eq_true h]; rfl
  · rw [Int.compare_eq_eq.2 rfl, decide_eq_false (Int.lt_irrefl a)]; rfl
  · rw [Int.compare_eq_gt.2 h, decide_eq_false (by omega)]; rfl

theorem lt_eq_rankOf {u v : UnpackedFloat} (hu : Canonical u) (hv : Canonical v) :
    u.lt v = decide (rankOf u < rankOf v) := by
  rw [UnpackedFloat.lt, compare_eq_rankOf hu hv, compare_beq_lt]

/-! ## Subtraction -/

/-- A value is less than a zero exactly when it is below zero. -/
theorem lt_zero_eq_negative (w : UnpackedFloat) (s : Sign) : w.lt (.zero s) = negative w := by
  cases w with
  | notANumber => rfl
  | infinity t => cases t <;> rfl
  | zero t => rfl
  | finite t m e h => cases t <;> rfl

/-- A value rounded from an integer mantissa at an exponent no lower than the least is
below zero exactly when the integer is. -/
theorem negative_normalize {M : Int} {E : Int} (hE : -1074 ≤ E) (z : Sign) (hz : z = .positive) :
    negative (UnpackedFloat.unpack binary64 (UnpackedFloat.pack binary64 (normalize binary64 M E z))) =
      decide (M < 0) := by
  unfold UnpackedFloat.normalize
  split
  · next hlt =>
    have hM : M < 0 := Int.compare_eq_lt.1 hlt
    obtain ⟨m', e', h', hr, hm', he'⟩ := round_finite .negative (m := (-M).toNat) (by omega) hE
    rw [hr, negative_unpack_pack_finite _ _ hm' he', decide_eq_true hM]
    rfl
  · next heq =>
    have hM : M = 0 := Int.compare_eq_eq.1 heq
    subst hz
    rw [negative_unpack_pack_zero, decide_eq_false (by omega)]
  · next hgt =>
    have hM : 0 < M := Int.compare_eq_gt.1 hgt
    obtain ⟨m', e', h', hr, hm', he'⟩ := round_finite .positive (m := M.toNat) (by omega) hE
    rw [hr, negative_unpack_pack_finite _ _ hm' he', decide_eq_false (by omega)]
    rfl

/-- A mantissa moved down to a lower exponent keeps its value. -/
theorem shiftLeft_mul_pow {m : Nat} {e E : Int} (hE : E ≤ e) (hlo : -1074 ≤ E) :
    (m <<< (e - E).toNat) * 2 ^ (E + 1074).toNat = m * 2 ^ (e + 1074).toNat := by
  rw [Nat.shiftLeft_eq, Nat.mul_assoc, ← Nat.pow_add]
  congr 2
  omega

theorem apply_mul (s : Sign) (a b : Int) : s.apply a * b = s.apply (a * b) := by
  cases s <;> simp [Sign.apply]

/-- The difference of two finite values is below zero exactly when the first ranks
below the second: the model subtracts the mantissas at the lower exponent exactly and
rounds once, which keeps the sign. -/
theorem negative_sub_finite {s t : Sign} {m m' : Nat} {e e' : Int} {h : 0 < m} {h' : 0 < m'}
    (hlo : -1074 ≤ e) (hlo' : -1074 ≤ e') :
    negative (UnpackedFloat.unpack binary64
        (UnpackedFloat.pack binary64 (sub binary64 (.finite s m e h) (.finite t m' e' h')))) =
      decide (rankOf (.finite s m e h) < rankOf (.finite t m' e' h')) := by
  simp only [UnpackedFloat.sub, decreaseExponent]
  rw [negative_normalize (by omega) _ rfl]
  have hP : (0 : Int) < ((2 ^ (min e e' + 1074).toNat : Nat) : Int) :=
    Int.natCast_pos.2 (Nat.two_pow_pos _)
  have hscaled : (s.apply ↑(m <<< (e - min e e').toNat) - t.apply ↑(m' <<< (e' - min e e').toNat)) *
      ((2 ^ (min e e' + 1074).toNat : Nat) : Int) =
      rankOf (.finite s m e h) - rankOf (.finite t m' e' h') := by
    rw [Int.sub_mul, apply_mul, apply_mul, ← Int.natCast_mul, ← Int.natCast_mul,
      shiftLeft_mul_pow (Int.min_le_left e e') (by omega),
      shiftLeft_mul_pow (Int.min_le_right e e') (by omega)]
    rfl
  have hsign : ∀ {M : Int}, M < 0 ↔ M * ((2 ^ (min e e' + 1074).toNat : Nat) : Int) < 0 :=
    ⟨fun hM => Int.mul_neg_of_neg_of_pos hM hP, fun hM => Int.neg_of_mul_neg_left hM hP⟩
  exact decide_eq_decide.2 (hsign.trans (by rw [hscaled]; omega))

/-- The difference of two values that are not not-a-number is below zero exactly when
the first is less than the second, through every case of the model's subtraction:
infinities (the difference of equal ones is not-a-number), zeros, and finite values. -/
theorem negative_sub {u v : UnpackedFloat} (hu : Canonical u) (hv : Canonical v) :
    negative (UnpackedFloat.unpack binary64 (UnpackedFloat.pack binary64 (sub binary64 u v))) =
      u.lt v := by
  cases hu with
  | infinity s =>
    cases hv with
    | infinity t => cases s <;> cases t <;> rfl
    | zero t => cases s <;> cases t <;> rfl
    | finite t m e h =>
      rw [show sub binary64 (.infinity s) (.finite t m e h) = .infinity s by
        cases s <;> cases t <;> rfl]
      cases s <;> cases t <;> rfl
  | zero s =>
    cases hv with
    | infinity t =>
      rw [show sub binary64 (.zero s) (.infinity t) = .infinity (-t) by cases s <;> cases t <;> rfl]
      cases s <;> cases t <;> rfl
    | zero t => cases s <;> cases t <;> rfl
    | finite t m e h hm hlo =>
      rw [show sub binary64 (.zero s) (.finite t m e h) = .finite (-t) m e h from rfl,
        negative_unpack_pack_finite _ _ hm hlo]
      cases t <;> rfl
  | finite s m e h hm hlo hhi hfull =>
    cases hv with
    | infinity t =>
      rw [show sub binary64 (.finite s m e h) (.infinity t) = .infinity (-t) by
        cases s <;> cases t <;> rfl]
      cases s <;> cases t <;> rfl
    | zero t =>
      rw [show sub binary64 (.finite s m e h) (.zero t) = .finite s m e h from rfl,
        negative_unpack_pack_finite _ _ hm hlo]
      cases s <;> rfl
    | finite t m' e' h' hm' hlo' hhi' hfull' =>
      rw [negative_sub_finite hlo hlo', lt_eq_rankOf (.finite _ _ _ _ hm hlo hhi hfull)
        (.finite _ _ _ _ hm' hlo' hhi' hfull')]

/-! ## Doubles -/

/-- Where a double stands on the line of doubles (not-a-number at 0). -/
def rank (x : Float) : Int := rankOf x.toModel.unpack

theorem lt_iff_unpack (x y : Float) : x < y ↔ x.toModel.unpack.lt y.toModel.unpack = true := by
  show decide (x.toModel < y.toModel) = true ↔ _
  exact decide_eq_true_iff

theorem canonical_toModel {x : Float} (hx : x.isNaN = false) : Canonical x.toModel.unpack :=
  canonical_unpack _ hx

/-- Doubles other than not-a-number are ordered as their ranks are. -/
theorem lt_iff_rank_lt {x y : Float} (hx : x.isNaN = false) (hy : y.isNaN = false) :
    x < y ↔ rank x < rank y := by
  rw [lt_iff_unpack, lt_eq_rankOf (canonical_toModel hx) (canonical_toModel hy), decide_eq_true_iff]
  rfl

/-- A difference of doubles other than not-a-number is below zero exactly when the first
is below the second, also when the difference overflows to an infinity or when both are
the same infinity (whose difference is not-a-number). -/
theorem sub_lt_zero_iff {x y : Float} (hx : x.isNaN = false) (hy : y.isNaN = false) :
    x - y < 0 ↔ x < y := by
  rw [lt_iff_unpack, lt_iff_unpack]
  show (Float.Model.pack (sub binary64 x.toModel.unpack y.toModel.unpack)).unpack.lt
    (.zero .positive) = true ↔ _
  rw [lt_zero_eq_negative]
  show negative (UnpackedFloat.unpack binary64
    (UnpackedFloat.pack binary64 (sub binary64 x.toModel.unpack y.toModel.unpack))) = true ↔ _
  rw [negative_sub (canonical_toModel hx) (canonical_toModel hy)]

end LaneGate.Decimal
