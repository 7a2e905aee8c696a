import LaneGate.Proofs.Decimal.Rounding
import LaneGate.Decimal.Log
/-!
# Logarithms above one

`naturalLog` is the classic table-free logarithm: the argument `y` is split by its bits into
`2^k · X` with `X` from `√2/2` to `√2` (`logScaled`), and `log X = log (1 + f)` is computed
from `f = X - 1` by one of three formulas picked by the top bits of `X`'s fraction
(`logReduced`). Every step is one double operation.

The main statement, `naturalLog_within`: the computed logarithm of every finite double above
one is a finite double from `2^-60` to `712`. No formula needs more than the ranges of its
inputs, so the proof never asks which formula runs. The reduction gives `X` from `0.7` to
`1.415` and `k` from 0 to 1024, and `X` is the argument itself when `k = 0`, above one by at
least a unit in its last place (`logScaled_reduced`). For `|f| ≤ a` each correction the
formulas subtract from `f` is of size `a²` at most (`within_smallCorrection`,
`within_series`, `within_halfSquareTerm`, `within_seriesTerm`). With `k ≥ 1` the term
`k · ln 2` outweighs `f` and its correction (`logReduced_scaled`); with `k = 0`, `f` is
positive and its correction a fraction of it (`logReduced_unscaled`).
-/

namespace LaneGate.Decimal

open Float.Model UnpackedFloat

/-! ### Constants -/

/-- A finite double's value read off its integer form. -/
theorem value_eq_ofFloat {x : Float} (hx : isFinite x = true) :
    value x = ((signOf (Binary.ofFloat x).neg).apply 1 : ℚ) *
      ((Binary.ofFloat x).mant * 2 ^ (Binary.ofFloat x).exp) := by
  rw [value_eq_valueOf, unpack_eq_toUnpacked hx, Binary.toUnpacked]
  split
  · rw [valueOf_finite _ _ (exp_ofFloat x)]
  · rename_i h
    rw [valueOf_zero, Nat.eq_zero_of_not_pos h]
    simp

/-- A positive double given by its integer form lies in any range around that form's
value. -/
theorem within_of_form {x : Float} (hx : isFinite x = true) {m : Nat} {e : Int}
    (hb : Binary.ofFloat x = ⟨false, m, e⟩) {lo hi : ℚ} (hlo : lo ≤ m * 2 ^ e)
    (hhi : m * 2 ^ e ≤ hi) : Within x lo hi := by
  have hv := value_eq_ofFloat hx
  rw [hb] at hv
  simp only [signOf, Bool.false_eq_true, if_false, Sign.apply, Int.cast_one, one_mul] at hv
  exact ⟨hx, hv ▸ hlo, hv ▸ hhi⟩

theorem within_one : Within 1.0 1 1 :=
  within_of_form (m := 4503599627370496) (e := -52) (by rfl) (by rfl)
    (by norm_num) (by norm_num)

theorem within_two : Within 2.0 2 2 :=
  within_of_form (m := 4503599627370496) (e := -51) (by rfl) (by rfl)
    (by norm_num) (by norm_num)

theorem within_half : Within 0.5 (1 / 2) (1 / 2) :=
  within_of_form (m := 4503599627370496) (e := -53) (by rfl) (by rfl)
    (by norm_num) (by norm_num)

theorem within_third : Within third (3333 / 10000) (3334 / 10000) :=
  within_of_form (m := 6004799503160661) (e := -54) (by rfl) (by rfl)
    (by norm_num) (by norm_num)

theorem within_ln2Hi : Within ln2Hi (6931 / 10000) (6932 / 10000) :=
  within_of_form (m := 6243314766446592) (e := -53) (by rfl) (by rfl)
    (by norm_num) (by norm_num)

theorem within_ln2Lo : Within ln2Lo (1 / 10 ^ 10) (2 / 10 ^ 10) :=
  within_of_form (m := 7382048951581814) (e := -85) (by rfl) (by rfl)
    (by norm_num) (by norm_num)

theorem within_lg1 : Within lg1 (6666 / 10000) (6667 / 10000) :=
  within_of_form (m := 6004799503160723) (e := -53) (by rfl) (by rfl)
    (by norm_num) (by norm_num)

theorem within_lg2 : Within lg2 (3999 / 10000) (4 / 10) :=
  within_of_form (m := 7205759403686404) (e := -54) (by rfl) (by rfl)
    (by norm_num) (by norm_num)

theorem within_lg3 : Within lg3 (2857 / 10000) (2858 / 10000) :=
  within_of_form (m := 5146971033736025) (e := -54) (by rfl) (by rfl)
    (by norm_num) (by norm_num)

theorem within_lg4 : Within lg4 (2222 / 10000) (2223 / 10000) :=
  within_of_form (m := 8006390766270639) (e := -55) (by rfl) (by rfl)
    (by norm_num) (by norm_num)

theorem within_lg5 : Within lg5 (1818 / 10000) (1819 / 10000) :=
  within_of_form (m := 6551322304906206) (e := -55) (by rfl) (by rfl)
    (by norm_num) (by norm_num)

theorem within_lg6 : Within lg6 (1531 / 10000) (1532 / 10000) :=
  within_of_form (m := 5517391500461727) (e := -55) (by rfl) (by rfl)
    (by norm_num) (by norm_num)

theorem within_lg7 : Within lg7 (1479 / 10000) (1480 / 10000) :=
  within_of_form (m := 5331612937900612) (e := -55) (by rfl) (by rfl)
    (by norm_num) (by norm_num)

/-- An integer from 0 to `2^53` made a double is exact. -/
theorem within_ofInt {k : Int} (h0 : 0 ≤ k) (hk : k < 2 ^ 53) : Within (Float.ofInt k) k k := by
  have hw : Whole (k.toNat).toFloat (k.toNat : Int) := Whole.toFloat (by omega)
  rw [Int.toNat_of_nonneg h0] at hw
  have hi := hw.integral.ofInt
  have hv : value (Float.ofInt k) = k := by
    rw [value, hi.rank, Int.cast_mul, Int.cast_pow, Int.cast_ofNat]
    exact mul_div_cancel_right₀ _ (by positivity)
  exact ⟨hi.finite, hv.ge, hv.le⟩

/-- A count below `2^53` made a double is exact. -/
theorem within_toFloat {n : Nat} (hn : n < 2 ^ 53) : Within n.toFloat n n := by
  have hi := (Whole.toFloat hn).integral
  have hv : value n.toFloat = n := by
    rw [value, hi.rank, Int.cast_mul, Int.cast_pow, Int.cast_ofNat, Int.cast_natCast]
    exact mul_div_cancel_right₀ _ (by positivity)
  exact ⟨hi.finite, hv.ge, hv.le⟩

/-! ### Argument reduction -/

/-- The bits of a double above one: sign bit clear, a biased exponent `E` from 1023 to
2046 and a fraction `F`, for the value `(2^52 + F) · 2^(E - 1075)`. -/
theorem bits_of_one_lt {y : Float} (hy : isFinite y = true) (h1 : 1 < value y) :
    ∃ E F : Nat, 1023 ≤ E ∧ E ≤ 2046 ∧ F < 2 ^ 52 ∧ y.toBits.toNat = E * 2 ^ 52 + F ∧
      value y = (2 ^ 52 + F) * 2 ^ ((E : Int) - 1075) := by
  have hv := value_eq_ofFloat hy
  have hfin : y.toBits.toNat / 2 ^ 52 % 2048 ≠ 2047 := by
    unfold isFinite at hy
    rw [fields_eq] at hy
    have h : ¬ y.toModel.toBits.toNat / 2 ^ 52 % 2048 = 2047 := by simpa using hy
    exact h
  have hB : y.toBits.toNat < 2 ^ 64 := y.toBits.toNat_lt
  rw [ofFloat_eq_ofBits] at hv
  generalize y.toBits.toNat = B at hv hfin hB ⊢
  have hpos : ∀ {neg : Bool} {m : Nat} {e : Int},
      value y = ((signOf neg).apply 1 : ℚ) * (m * 2 ^ e) → neg = false ∧ 1 < (m : ℚ) * 2 ^ e := by
    intro neg m e h
    cases neg
    · simp only [signOf, Bool.false_eq_true, if_false, Sign.apply, Int.cast_one, one_mul] at h
      exact ⟨rfl, h ▸ h1⟩
    · simp only [signOf, if_true, Sign.apply, Int.cast_neg, Int.cast_one, neg_one_mul] at h
      have : (0 : ℚ) ≤ m * 2 ^ e := by positivity
      linarith
  unfold Binary.ofBits at hv
  split at hv
  · -- a subnormal is below one
    obtain ⟨-, hlt⟩ := hpos hv
    dsimp only at hlt
    have hF : ((B % 2 ^ 52 : Nat) : ℚ) < 2 ^ 52 := by exact_mod_cast Nat.mod_lt _ (by positivity)
    have : ((B % 2 ^ 52 : Nat) : ℚ) * 2 ^ (-1074 : Int) < 1 :=
      calc _ ≤ ((B % 2 ^ 52 : Nat) : ℚ) * 2 ^ (-52 : Int) := by gcongr <;> norm_num
        _ < 2 ^ 52 * 2 ^ (-52 : Int) := by gcongr
        _ = 1 := by norm_num
    linarith
  · rename_i hE0
    obtain ⟨hs, hlt⟩ := hpos hv
    dsimp only at hs hlt hv
    have hB63 : B < 2 ^ 63 := by
      simp only [beq_eq_false_iff_ne] at hs
      omega
    have hE : B / 2 ^ 52 % 2048 = B / 2 ^ 52 := Nat.mod_eq_of_lt (by omega)
    rw [hE] at hlt hv hfin
    refine ⟨B / 2 ^ 52, B % 2 ^ 52, ?_, by omega, Nat.mod_lt _ (by positivity), by omega, ?_⟩
    · -- with a biased exponent below 1023 the value is below one
      by_contra hlo
      have hz : (2 : ℚ) ^ (((B / 2 ^ 52 : Nat) : Int) - 1075) ≤ 2 ^ (-53 : Int) :=
        zpow_le_zpow_right₀ one_le_two (by omega)
      have hm : (((B % 2 ^ 52 + 2 ^ 52 : Nat)) : ℚ) ≤ 2 ^ 53 := by
        have : B % 2 ^ 52 + 2 ^ 52 ≤ 2 ^ 53 := by omega
        exact_mod_cast this
      have : (((B % 2 ^ 52 + 2 ^ 52 : Nat)) : ℚ) * 2 ^ (((B / 2 ^ 52 : Nat) : Int) - 1075) ≤ 1 :=
        calc _ ≤ (2 : ℚ) ^ 53 * 2 ^ (-53 : Int) := by gcongr
          _ = 1 := by norm_num
      linarith
    · rw [hv, hs]
      simp only [signOf, Bool.false_eq_true, if_false, Sign.apply, Int.cast_one, one_mul]
      push_cast
      ring

theorem highWord_eq (x : Float) : highWord x = x.toBits.toNat / 2 ^ 32 := by
  simp [highWord, UInt64.toNat_shiftRight, Nat.shiftRight_eq_div_pow]

/-- Replacing the upper word by `h` keeps the lower 32 bits. -/
theorem toNat_withHighWord (x : Float) {h : Nat} (hh : h < 2 ^ 32) :
    ((h.toUInt64 <<< 32) ||| (x.toBits &&& 0xFFFFFFFF)).toNat =
      h * 2 ^ 32 + x.toBits.toNat % 2 ^ 32 := by
  have h32 : (32 : UInt64).toNat % 64 = 32 := rfl
  have hs : (h.toUInt64 <<< 32).toNat = h <<< 32 := by
    rw [UInt64.toNat_shiftLeft, h32, Nat.toUInt64_eq, UInt64.toNat_ofNat',
      Nat.mod_eq_of_lt (by omega : h < 2 ^ 64), Nat.shiftLeft_eq]
    exact Nat.mod_eq_of_lt (by omega)
  rw [UInt64.toNat_or, hs, UInt64.toNat_and, show (0xFFFFFFFF : UInt64).toNat = 2 ^ 32 - 1 from rfl,
    Nat.and_two_pow_sub_one_eq_mod, ← Nat.shiftLeft_add_eq_or_of_lt (Nat.mod_lt _ (by positivity)),
    Nat.shiftLeft_eq]

/-- The double with the bits of the normal positive number `(2^52 + F) · 2^(E - 1075)`. -/
theorem value_ofBits {b : UInt64} {E F : Nat} (hb : b.toNat = E * 2 ^ 52 + F) (hE : 1 ≤ E)
    (hE' : E ≤ 2046) (hF : F < 2 ^ 52) :
    isFinite (Float.ofBits b) = true ∧
      value (Float.ofBits b) = (2 ^ 52 + F) * 2 ^ ((E : Int) - 1075) := by
  have hform : Binary.ofBits b.toNat = ⟨false, F + 2 ^ 52, (E : Int) - 1075⟩ := by
    rw [hb]
    unfold Binary.ofBits
    rw [if_neg (by omega)]
    congr 1
    · simp only [beq_eq_false_iff_ne]
      omega
    · omega
    · congr 2
      omega
  have hu : (Float.ofBits b).toModel.unpack =
      .finite .positive (F + 2 ^ 52) ((E : Int) - 1075) (by positivity) := by
    show UnpackedFloat.unpack binary64
      (UnpackedFloat.pack binary64 (UnpackedFloat.unpack binary64 b.toBitVec)) = _
    rw [unpack_bits b.toBitVec (by rw [UInt64.toNat_toBitVec, hb]; omega), UInt64.toNat_toBitVec, hform,
      Binary.toUnpacked, dif_pos (by positivity)]
    exact unpack_pack_finite (m := F + 2 ^ 52) (e := (E : Int) - 1075) .positive _ (by omega)
      (by omega) (by omega) (fun _ => by omega)
  refine ⟨isFinite_of_bounded (.inr ⟨_, _, _, _, hu⟩), ?_⟩
  rw [value_of_unpack_finite hu (by omega)]
  simp only [Sign.apply, Int.cast_one, one_mul]
  push_cast
  ring

/-- Setting the upper word of a double with fraction `F` to the exponent field `c` and the
fraction's top 20 bits gives `(2^52 + F) · 2^(c - 1075)`: the whole fraction is kept. -/
theorem value_withHighWord {y : Float} {E F c : Nat} (hB : y.toBits.toNat = E * 2 ^ 52 + F)
    (hF : F < 2 ^ 52) (hc : 1 ≤ c) (hc' : c ≤ 2046) :
    isFinite (withHighWord y (F / 2 ^ 32 ||| c * 2 ^ 20)) = true ∧
      value (withHighWord y (F / 2 ^ 32 ||| c * 2 ^ 20)) = (2 ^ 52 + F) * 2 ^ ((c : Int) - 1075) := by
  have hor : F / 2 ^ 32 ||| c * 2 ^ 20 = c * 2 ^ 20 + F / 2 ^ 32 := by
    rw [Nat.or_comm, ← Nat.shiftLeft_eq, Nat.shiftLeft_add_eq_or_of_lt (by omega)]
  rw [hor]
  apply value_ofBits _ hc hc' hF
  rw [toNat_withHighWord y (by omega), hB]
  omega

/-- What the reduction leaves for `logReduced`: a double `x` from `0.7` to `1.415` and a
scale `k` from 0 to 1024, with `x` above one by at least a unit in its last place when
`k = 0`. -/
structure Reduced (x : Float) (k : Int) : Prop where
  within : Within x (7 / 10) (283 / 200)
  scale_nonneg : 0 ≤ k
  scale_le : k ≤ 1024
  above : k = 0 → 1 + 1 / 2 ^ 52 ≤ value x

/-- The reduction of a double above one. -/
theorem logScaled_reduced {y : Float} (hy : isFinite y = true) (h1 : 1 < value y) :
    ∃ x k hm, Reduced x k ∧ logScaled y 0 = logReduced x k hm := by
  obtain ⟨E, F, hE, hE', hF, hB, hv⟩ := bits_of_one_lt hy h1
  have hx : highWord y = E * 2 ^ 20 + F / 2 ^ 32 := by
    rw [highWord_eq, hB]
    omega
  have hm : highWord y &&& 0xfffff = F / 2 ^ 32 := by
    rw [show (0xfffff : Nat) = 2 ^ 20 - 1 from rfl, Nat.and_two_pow_sub_one_eq_mod, hx]
    omega
  -- the rounding bit is set when the fraction is at least `√2 - 1`
  have hi : (F / 2 ^ 32 + 0x95f64) &&& 0x100000 =
      (if 0x6a09c ≤ F / 2 ^ 32 then 1 else 0) * 2 ^ 20 := by
    rw [show (0x100000 : Nat) = 2 ^ 20 from rfl, Nat.and_two_pow, Nat.testBit_eq_decide_div_mod_eq]
    split <;> simp <;> omega
  have hE20 : highWord y >>> 20 = E := by
    rw [hx, Nat.shiftRight_eq_div_pow]
    omega
  unfold logScaled
  rw [if_neg (by omega)]
  refine ⟨_, _, _, ?_, rfl⟩
  simp only [hm, hi, hE20]
  split
  · -- `x = (1 + F / 2^52) / 2`, one step lower, and the scale is one more
    rename_i hj
    rw [show 1 * 2 ^ 20 ^^^ 0x3ff00000 = 1022 * 2 ^ 20 from rfl]
    obtain ⟨hfin, hval⟩ := value_withHighWord (c := 1022) hB hF (by norm_num) (by norm_num)
    have hlo : (0x6a09c * 2 ^ 32 : ℚ) ≤ F := by exact_mod_cast (by omega : 0x6a09c * 2 ^ 32 ≤ F)
    have hhi : (F : ℚ) < 2 ^ 52 := by exact_mod_cast hF
    simp only [Nat.shiftRight_eq_div_pow]
    refine ⟨⟨hfin, ?_, ?_⟩, by omega, by omega, by omega⟩
    · rw [hval]
      norm_num
      linarith
    · rw [hval]
      norm_num
      linarith
  · rename_i hj
    rw [show 0 * 2 ^ 20 ^^^ 0x3ff00000 = 1023 * 2 ^ 20 from rfl]
    obtain ⟨hfin, hval⟩ := value_withHighWord (c := 1023) hB hF (by norm_num) (by norm_num)
    have hlo : (0 : ℚ) ≤ F := by positivity
    have hhi : (F : ℚ) < 0x6a09c * 2 ^ 32 := by exact_mod_cast (by omega : F < 0x6a09c * 2 ^ 32)
    simp only [Nat.shiftRight_eq_div_pow]
    refine ⟨⟨hfin, ?_, ?_⟩, by omega, by omega, ?_⟩
    · rw [hval]
      norm_num
      linarith
    · rw [hval]
      norm_num
      linarith
    · -- at scale zero `x` is `y` itself, whose fraction is not zero
      intro hk
      have hE1 : E = 1023 := by omega
      have hF1 : (1 : ℚ) ≤ F := by
        rcases Nat.eq_zero_or_pos F with h0 | h0
        · rw [hv, hE1, h0] at h1
          norm_num at h1
        · exact_mod_cast h0
      rw [hval]
      norm_num
      linarith

/-! ### The corrections -/

/-- Above `2^-64` the least subnormal is negligible next to a square. -/
theorem tinyError_le_sq {a : ℚ} (ha : 1 / 2 ^ 64 ≤ a) : tinyError ≤ a * a / 2 ^ 100 :=
  calc tinyError ≤ 1 / 2 ^ 228 := by unfold tinyError; gcongr <;> norm_num
    _ = 1 / 2 ^ 64 * (1 / 2 ^ 64) / 2 ^ 100 := by norm_num
    _ ≤ a * a / 2 ^ 100 := by gcongr

theorem tinyError_le_of {a : ℚ} (ha : 1 / 2 ^ 64 ≤ a) : tinyError ≤ a / 2 ^ 100 :=
  calc tinyError ≤ 1 / 2 ^ 164 := by unfold tinyError; gcongr <;> norm_num
    _ = 1 / 2 ^ 64 / 2 ^ 100 := by norm_num
    _ ≤ a / 2 ^ 100 := by gcongr

/-- One rounding of values up to `a²` adds at most `a² / 2^49`. -/
theorem slack_le_sq {a M : ℚ} (ha : 1 / 2 ^ 64 ≤ a) (hM : M ≤ a * a) : slack M ≤ a * a / 2 ^ 49 := by
  have := tinyError_le_sq ha
  have : M / 2 ^ 50 ≤ a * a / 2 ^ 50 := by gcongr
  have := mul_self_nonneg a
  unfold slack
  linarith

/-- One rounding of values up to `a` adds at most `a / 2^49`. -/
theorem slack_le {a M : ℚ} (ha : 1 / 2 ^ 64 ≤ a) (hM : M ≤ a) : slack M ≤ a / 2 ^ 49 := by
  have := tinyError_le_of ha
  have : 0 ≤ a := le_trans (by positivity) ha
  have : M / 2 ^ 50 ≤ a / 2 ^ 50 := by gcongr
  unfold slack
  linarith

section Corrections

variable {f s : Float} {a : ℚ}

/-- `f² (1/2 - f/3)` for `|f| ≤ a` is from 0 to `2a²/3`. -/
theorem within_smallCorrection (hf : Within f (-a) a) (ha : 1 / 2 ^ 60 ≤ a) (ha' : a ≤ 21 / 50) :
    Within (smallCorrection f) 0 (2 / 3 * (a * a)) := by
  have ha0 : 0 ≤ a := le_trans (by positivity) ha
  have hsq : a * a ≤ 21 / 50 * a := mul_le_mul_of_nonneg_right ha' ha0
  have ha2 := mul_self_nonneg a
  have hs1 := slack_le_sq (M := a * a) (le_trans (by norm_num) ha) le_rfl
  have hs2 := slack_le (M := 3334 / 10000 * a) (le_trans (by norm_num) ha) (by linarith)
  have hs2' := slack_nonneg (M := 3334 / 10000 * a) (by linarith)
  have hs3 := slack_le (M := 1) (a := 1) (by norm_num) le_rfl
  have hff := hf.mul_self le_rfl (by nlinarith)
  have htf := (within_third.weaken (p := -(3334 / 10000)) (by norm_num) le_rfl).mul_of_abs hf
    le_rfl (by linarith)
  have hh := (within_half.sub htf (M := 1) (by linarith) (by linarith) (by norm_num)).weaken (p := 1 / 4) (q := 13 / 20)
    (by linarith) (by linarith)
  have hs4 := slack_le_sq (M := a * a) (le_trans (by norm_num) ha) le_rfl
  have hr := (hff.weaken le_rfl (q := 1001 / 1000 * (a * a)) (by linarith)).mul_of_nonneg' hh le_rfl
    (by norm_num) (M := a * a) (by linarith) (by nlinarith)
  exact hr.weaken le_rfl (by linarith)

/-- `f / (2 + f)` for `|f| ≤ a` and `f ≥ -0.31` is of size at most `3a/5`. -/
theorem within_quotient (hf : Within f (-a) a) (hlo : -(31 / 100) ≤ value f) (ha : 1 / 2 ^ 60 ≤ a)
    (ha' : a ≤ 21 / 50) : Within (f / (2.0 + f)) (-(3 / 5 * a)) (3 / 5 * a) := by
  have hs3 := slack_le (M := 3) (a := 3) (by norm_num) le_rfl
  have hs3' := slack_nonneg (M := 3) (by norm_num)
  have hd := (within_two.add ⟨hf.finite, hlo, hf.le_hi⟩ (M := 3) (by linarith) (by linarith) (by norm_num)).weaken (p := 168 / 100) (q := 3)
    (by linarith) (by linarith)
  have hsa := slack_le (M := a) (le_trans (by norm_num) ha) le_rfl
  have hq := hf.div_of_abs hd (by norm_num) (M := a) (by linarith) (by linarith)
  exact hq.weaken (by linarith) (by linarith)

/-- A step of Horner's rule in the series: a coefficient `c` plus `w · p`, for `w` up to
`1/200` and `p` up to `P ≤ 1`. -/
theorem within_horner {c w p : Float} {lo hi P : ℚ} (hc : Within c lo hi)
    (hw : Within w 0 (1 / 200)) (hp : Within p 0 P) (hlo : 1 / 100 ≤ lo) (hhi : hi ≤ 1)
    (hP : P ≤ 1) : Within (c + w * p) 0 (hi + P / 200 + 1 / 2 ^ 47) := by
  have hs1 := slack_le (M := 1) (a := 1) (by norm_num) le_rfl
  have hs2 := slack_le (M := 2) (a := 2) (by norm_num) le_rfl
  have hs2' := slack_nonneg (M := 2) (by norm_num)
  have hs1' := slack_nonneg (M := 1) (by norm_num)
  have hP0 : 0 ≤ P := hp.lo_le.trans hp.le_hi
  have hlh : lo ≤ hi := hc.lo_le.trans hc.le_hi
  have hwp := hw.mul_of_nonneg' hp le_rfl le_rfl (M := 1) (by linarith) (by norm_num)
  have h := hc.add hwp (M := 2) (by linarith) (by linarith) (by norm_num)
  exact h.weaken (by linarith) (by linarith)

/-- The series in `s²` for `|s| ≤ b ≤ 0.26` is from 0 to `0.7 b²`. -/
theorem within_series {b : ℚ} (hs : Within s (-b) b) (hb : 1 / 2 ^ 64 ≤ b) (hb' : b ≤ 13 / 50) :
    Within (series s) 0 (7 / 10 * (b * b)) := by
  have hb0 : 0 ≤ b := le_trans (by positivity) hb
  have hb2 := mul_self_nonneg b
  have hbb : b * b ≤ 169 / 2500 := by nlinarith
  have h4 : b * b * (b * b) ≤ 169 / 2500 * (b * b) := mul_le_mul_of_nonneg_right hbb hb2
  have hsb := slack_le_sq (M := b * b) hb le_rfl
  have hz := (hs.mul_self le_rfl (by nlinarith)).weaken le_rfl (q := 1001 / 1000 * (b * b))
    (by linarith)
  have hw := (hz.mul_of_nonneg' hz le_rfl le_rfl (M := b * b) (by nlinarith) (by nlinarith)).weaken
    le_rfl (q := 7 / 100 * (b * b)) (by nlinarith)
  have hw' := hw.weaken le_rfl (q := 1 / 200) (by linarith)
  have h46 := within_horner within_lg4 hw' (within_lg6.weaken (by norm_num) le_rfl)
    (by norm_num) (by norm_num) (by norm_num)
  have h246 := within_horner within_lg2 hw' h46 (by norm_num) (by norm_num) (by norm_num)
  have h57 := within_horner within_lg5 hw' (within_lg7.weaken (by norm_num) le_rfl)
    (by norm_num) (by norm_num) (by norm_num)
  have h357 := within_horner within_lg3 hw' h57 (by norm_num) (by norm_num) (by norm_num)
  have h1357 := within_horner within_lg1 hw' h357 (by norm_num) (by norm_num) (by norm_num)
  have ht1 := hw.mul_of_nonneg' h246 le_rfl le_rfl (M := b * b) (by nlinarith) (by nlinarith)
  have ht2 := hz.mul_of_nonneg' h1357 le_rfl le_rfl (M := b * b) (by nlinarith) (by nlinarith)
  have hR := ht2.add_of_nonneg ht1 le_rfl le_rfl (M := b * b) (by nlinarith) (by nlinarith)
  exact hR.weaken le_rfl (by nlinarith)

/-- `f² / 2` for `|f| ≤ a`, as the product `(0.5 · f) · f`. -/
theorem within_halfSquare (hf : Within f (-a) a) (ha : 1 / 2 ^ 60 ≤ a) (ha' : a ≤ 21 / 50) :
    Within (0.5 * f * f) (-(13 / 25 * (a * a))) (13 / 25 * (a * a)) := by
  have ha0 : 0 ≤ a := le_trans (by positivity) ha
  have hsa := slack_le (M := 1 / 2 * a) (le_trans (by norm_num) ha) (by linarith)
  have hsa' := slack_nonneg (M := 1 / 2 * a) (by linarith)
  have hsq := slack_le_sq (M := a * a) (le_trans (by norm_num) ha) le_rfl
  have hsq' := slack_nonneg (M := a * a) (mul_self_nonneg a)
  have hh := ((within_half.weaken (p := -(1 / 2)) (by norm_num) le_rfl).mul_of_abs hf le_rfl
    (by nlinarith)).weaken (p := -(51 / 100 * a)) (q := 51 / 100 * a) (by linarith) (by linarith)
  have hp := hh.mul_of_abs hf (M := a * a) (by nlinarith) (by nlinarith)
  exact hp.weaken (by nlinarith) (by nlinarith)

/-- The correction `s · (f²/2 + R(s))` of the middle formula, for `|f| ≤ a`. -/
theorem within_halfSquareTerm (hf : Within f (-a) a) (hlo : -(31 / 100) ≤ value f)
    (ha : 1 / 2 ^ 60 ≤ a) (ha' : a ≤ 21 / 50) :
    Within (f / (2.0 + f) * (0.5 * f * f + series (f / (2.0 + f))))
      (-(13 / 50 * (a * a))) (13 / 50 * (a * a)) := by
  have ha0 : 0 ≤ a := le_trans (by positivity) ha
  have ha2 := mul_self_nonneg a
  have ha3 : a * (a * a) ≤ 21 / 50 * (a * a) := mul_le_mul_of_nonneg_right ha' ha2
  have hsq := slack_le_sq (M := a * a) (le_trans (by norm_num) ha) le_rfl
  have hsq' := slack_nonneg (M := a * a) ha2
  have hq := within_quotient hf hlo ha ha'
  have hR := within_series hq (by linarith) (by linarith)
  have hsum := ((within_halfSquare hf ha ha').add hR (M := a * a) (by nlinarith) (by nlinarith) (by nlinarith)).weaken
    (p := -(a * a)) (q := a * a) (by nlinarith) (by nlinarith)
  have hp := hq.mul_of_abs hsum (M := a * a) (by nlinarith) (by nlinarith)
  exact hp.weaken (by nlinarith) (by nlinarith)

/-- The correction `s · (f - R(s))` of the last formula, for `|f| ≤ a`. -/
theorem within_seriesTerm (hf : Within f (-a) a) (hlo : -(31 / 100) ≤ value f)
    (ha : 1 / 2 ^ 60 ≤ a) (ha' : a ≤ 21 / 50) :
    Within (f / (2.0 + f) * (f - series (f / (2.0 + f))))
      (-(73 / 100 * (a * a))) (73 / 100 * (a * a)) := by
  have ha0 : 0 ≤ a := le_trans (by positivity) ha
  have ha2 := mul_self_nonneg a
  have hsa := slack_le (M := 2 * a) (a := 2 * a) (by linarith) le_rfl
  have hsa' := slack_nonneg (M := 2 * a) (by linarith)
  have hsq := slack_le_sq (M := a * a) (le_trans (by norm_num) ha) le_rfl
  have hsq' := slack_nonneg (M := a * a) ha2
  have hq := within_quotient hf hlo ha ha'
  have hR := within_series hq (by linarith) (by linarith)
  have hd := (hf.sub hR (M := 2 * a) (by nlinarith) (by nlinarith) (by linarith)).weaken
    (p := -(6 / 5 * a)) (q := 6 / 5 * a) (by nlinarith) (by nlinarith)
  have hp := hq.mul_of_abs hd (M := a * a) (by nlinarith) (by nlinarith)
  exact hp.weaken (by nlinarith) (by nlinarith)

end Corrections

/-! ### The three formulas -/

/-- `k · ln2Hi`, the high part of `k · ln 2`, for `0 ≤ k ≤ 1024`. -/
theorem within_highPart {k : Int} (h0 : 0 ≤ k) (hk : k ≤ 1024) :
    Within (Float.ofInt k * ln2Hi) (6931 / 10000 * k - 1 / 2 ^ 39) (6932 / 10000 * k + 1 / 2 ^ 39) := by
  have hk0 : (0 : ℚ) ≤ k := by exact_mod_cast h0
  have hk1 : (k : ℚ) ≤ 1024 := by exact_mod_cast hk
  have hs := slack_le (M := 710) (a := 710) (by norm_num) le_rfl
  have h := (within_ofInt h0 (by omega)).mul_of_nonneg within_ln2Hi hk0 (by norm_num) (M := 710)
    (by linarith) (by norm_num)
  exact h.weaken (by linarith) (by linarith)

/-- `k · ln2Lo`, the low part of `k · ln 2`, for `0 ≤ k ≤ 1024`. -/
theorem within_lowPart {k : Int} (h0 : 0 ≤ k) (hk : k ≤ 1024) :
    Within (Float.ofInt k * ln2Lo) (-(1 / 10 ^ 6)) (1 / 10 ^ 6) := by
  have hk0 : (0 : ℚ) ≤ k := by exact_mod_cast h0
  have hk1 : (k : ℚ) ≤ 1024 := by exact_mod_cast hk
  have hs := slack_le (M := 1) (a := 1) (by norm_num) le_rfl
  have h := (within_ofInt h0 (by omega)).mul_of_nonneg within_ln2Lo hk0 (by norm_num) (M := 1)
    (by linarith) (by norm_num)
  exact h.weaken (by linarith) (by linarith)

/-- With a scale `k ≥ 1`, the high part of `k · ln 2` outweighs a correction of size at most
`3/5`. -/
theorem within_scaled {J : Float} {k : Int} (hk : 1 ≤ k) (hk' : k ≤ 1024)
    (hJ : Within J (-(3 / 5)) (3 / 5)) : Within (Float.ofInt k * ln2Hi - J) (1 / 20) 711 := by
  have hk1 : (1 : ℚ) ≤ k := by exact_mod_cast hk
  have hk2 : (k : ℚ) ≤ 1024 := by exact_mod_cast hk'
  have hs := slack_le (M := 711) (a := 711) (by norm_num) le_rfl
  have h := (within_highPart (by omega) hk').sub hJ (M := 711) (by linarith) (by linarith) (by norm_num)
  exact h.weaken (by linarith) (by linarith)

/-- Without a scale, the result is `f` less a correction of size at most `f²`: for
`0 < f ≤ 0.42` it lies from `f/2` to `2f`. -/
theorem within_unscaled {f J : Float} {φ : ℚ} (hf : Within f φ φ) (hφ : 1 / 2 ^ 53 ≤ φ)
    (hφ' : φ ≤ 21 / 50) (hJ : Within J (-(φ * φ)) (φ * φ)) : Within (f - J) (φ / 2) (2 * φ) := by
  have hsq : φ * φ ≤ 21 / 50 * φ := mul_le_mul_of_nonneg_right hφ' (le_trans (by positivity) hφ)
  have hs := slack_le (M := 2 * φ) (a := 2 * φ) (by linarith) le_rfl
  have h := hf.sub hJ (M := 2 * φ) (by nlinarith) (by nlinarith) (by linarith)
  exact h.weaken (by nlinarith) (by nlinarith)

theorem value_eq_zero_of_beq {f : Float} (hf : isFinite f = true) (h : (f == 0.0) = true) :
    value f = 0 := by
  rw [beq_iff_rank_eq (isNaN_eq_false hf) (by decide)] at h
  rw [value, h, show rank 0.0 = 0 by decide]
  simp

/-- With a scale from 1 to 1024 and `f` from `-0.31` to `0.42`, each formula gives from
`1/20` to `711`. -/
theorem logReduced_scaled {x : Float} {k : Int} (hm : Nat)
    (hf : Within (x - 1.0) (-(31 / 100)) (21 / 50)) (hk : 1 ≤ k) (hk' : k ≤ 1024) :
    Within (logReduced x k hm) (1 / 20) 711 := by
  have hf' : Within (x - 1.0) (-(21 / 50)) (21 / 50) := hf.weaken (by norm_num) le_rfl
  have hlo := hf.lo_le
  have hQ := within_lowPart (k := k) (by omega) hk'
  have hs := slack_le (M := 1) (a := 1) (by norm_num) le_rfl
  have hk0 : k ≠ 0 := by omega
  unfold logReduced
  simp only [hk0, if_false]
  split_ifs
  · -- `f = 0`: both parts of `k · ln 2`
    have hk1 : (1 : ℚ) ≤ k := by exact_mod_cast hk
    have hk2 : (k : ℚ) ≤ 1024 := by exact_mod_cast hk'
    have hs' := slack_le (M := 711) (a := 711) (by norm_num) le_rfl
    have h := (within_highPart (by omega) hk').add hQ (M := 711) (by linarith) (by linarith)
      (by norm_num)
    exact h.weaken (by linarith) (by linarith)
  · -- `f` less `f² (1/2 - f/3)`
    have hr := within_smallCorrection hf' (by norm_num) le_rfl
    have h1 := hr.sub hQ (M := 1) (by norm_num) (by norm_num) (by norm_num)
    have h2 := h1.sub hf (M := 1) (by linarith) (by linarith) (by norm_num)
    exact within_scaled hk hk' (h2.weaken (by linarith) (by linarith))
  · -- `f - f²/2` plus the series term
    have hh := within_halfSquare hf' (by norm_num) le_rfl
    have ht := within_halfSquareTerm hf' hlo (by norm_num) le_rfl
    have h1 := ht.add hQ (M := 1) (by norm_num) (by norm_num) (by norm_num)
    have h2 := hh.sub h1 (M := 1) (by linarith) (by linarith) (by norm_num)
    have h3 := h2.sub hf (M := 1) (by linarith) (by linarith) (by norm_num)
    exact within_scaled hk hk' (h3.weaken (by linarith) (by linarith))
  · -- `f` less the series term
    have ht := within_seriesTerm hf' hlo (by norm_num) le_rfl
    have h1 := ht.sub hQ (M := 1) (by norm_num) (by norm_num) (by norm_num)
    have h2 := h1.sub hf (M := 1) (by linarith) (by linarith) (by norm_num)
    exact within_scaled hk hk' (h2.weaken (by linarith) (by linarith))


/-- Without a scale and for `x` from `1 + 2^-52` to `1.415`, each formula gives from `2^-54`
to `1`. -/
theorem logReduced_unscaled {x : Float} (hm : Nat) (hx : Within x (1 + 1 / 2 ^ 52) (283 / 200)) :
    Within (logReduced x 0 hm) (1 / 2 ^ 54) 1 := by
  have hv1 : value 1.0 = 1 := le_antisymm within_one.le_hi within_one.lo_le
  have hw0 : 1 / 2 ^ 52 ≤ value x - value 1.0 := by linarith [hx.lo_le]
  have hw1 : value x - value 1.0 ≤ 83 / 200 := by linarith [hx.le_hi]
  have hr := Rounded.sub hx.finite within_one.finite
    (le_limit (by rw [abs_of_nonneg (by linarith)]; linarith))
  have hnear := abs_le.1 hr.near
  rw [abs_of_nonneg (by linarith)] at hnear
  have ht := tinyError_le_of (a := 1 / 2 ^ 64) le_rfl
  set φ := value (x - 1.0) with hφ_def
  have hφ : 1 / 2 ^ 53 ≤ φ := by linarith [hnear.1]
  have hφ' : φ ≤ 21 / 50 := by linarith [hnear.2]
  have ha : 1 / 2 ^ 60 ≤ φ := le_trans (by norm_num) hφ
  have hf : Within (x - 1.0) φ φ := Within.of_value hr.finite
  have hf' : Within (x - 1.0) (-φ) φ := hf.weaken (by linarith) le_rfl
  have hlo : -(31 / 100) ≤ value (x - 1.0) := by linarith
  have h2 := mul_self_nonneg φ
  have hne : (x - 1.0 == 0.0) = false := by
    cases h : (x - 1.0 == 0.0)
    · rfl
    · have := value_eq_zero_of_beq hr.finite h
      linarith
  have hout : ∀ {z : Float}, Within z (φ / 2) (2 * φ) → Within z (1 / 2 ^ 54) 1 :=
    fun h => h.weaken (by linarith) (by linarith)
  unfold logReduced
  simp only [hne, Bool.false_eq_true, if_false, if_true]
  split_ifs
  · -- `f` less `f² (1/2 - f/3)`
    have hr := within_smallCorrection hf' ha hφ'
    exact hout (within_unscaled hf hφ hφ' (hr.weaken (by linarith) (by linarith)))
  · -- `f` less `f²/2` less the series term
    have hs := slack_le_sq (M := φ * φ) (le_trans (by norm_num) hφ) le_rfl
    have hh := within_halfSquare hf' ha hφ'
    have ht := within_halfSquareTerm hf' hlo ha hφ'
    have h := hh.sub ht (M := φ * φ) (by linarith) (by linarith) (by nlinarith)
    exact hout (within_unscaled hf hφ hφ' (h.weaken (by linarith) (by linarith)))
  · -- `f` less the series term
    have ht := within_seriesTerm hf' hlo ha hφ'
    exact hout (within_unscaled hf hφ hφ' (ht.weaken (by linarith) (by linarith)))

/-- After any reduction the formulas give from `2^-60` to `712`. -/
theorem logReduced_within {x : Float} {k : Int} (h : Reduced x k) (hm : Nat) :
    Within (logReduced x k hm) (1 / 2 ^ 60) 712 := by
  rcases h.scale_nonneg.eq_or_lt with hk | hk
  · -- no scale: `x` itself is above one
    subst hk
    have hx : Within x (1 + 1 / 2 ^ 52) (283 / 200) := ⟨h.within.finite, h.above rfl, h.within.le_hi⟩
    exact (logReduced_unscaled hm hx).weaken (by norm_num) (by norm_num)
  · have hs := slack_le (M := 1) (a := 1) (by norm_num) le_rfl
    have hf := (h.within.sub within_one (M := 1) (by norm_num) (by norm_num) (by norm_num)).weaken
      (p := -(31 / 100)) (q := 21 / 50) (by linarith) (by linarith)
    exact (logReduced_scaled hm hf (by omega) h.scale_le).weaken (by norm_num) (by norm_num)

/-- A double above one is neither zero, negative nor subnormal, so its logarithm is
reduced with no prior scaling. -/
theorem naturalLog_eq_logScaled {y : Float} (hy : isFinite y = true) (h1 : 1 < value y) :
    naturalLog y = logScaled y 0 := by
  obtain ⟨E, F, hE, hE', hF, hB, -⟩ := bits_of_one_lt hy h1
  have h63 : (63 : UInt64).toNat % 64 = 63 := rfl
  have h52 : (52 : UInt64).toNat % 64 = 52 := rfl
  have hz : (y.toBits &&& 0x7FFFFFFFFFFFFFFF == 0) = false := by
    rw [beq_eq_false_iff_ne, ne_eq, ← UInt64.toNat_inj, UInt64.toNat_and,
      show (0x7FFFFFFFFFFFFFFF : UInt64).toNat = 2 ^ 63 - 1 from rfl,
      Nat.and_two_pow_sub_one_eq_mod, hB, UInt64.toNat_zero]
    omega
  have hs : (y.toBits >>> 63 == 1) = false := by
    rw [beq_eq_false_iff_ne, ne_eq, ← UInt64.toNat_inj, UInt64.toNat_shiftRight, h63,
      Nat.shiftRight_eq_div_pow, hB, UInt64.toNat_one]
    omega
  have hn : (y.toBits >>> 52 == 0) = false := by
    rw [beq_eq_false_iff_ne, ne_eq, ← UInt64.toNat_inj, UInt64.toNat_shiftRight, h52,
      Nat.shiftRight_eq_div_pow, hB, UInt64.toNat_zero]
    omega
  unfold naturalLog
  simp only [hz, hs, hn, Bool.false_eq_true, if_false]

/-- The logarithm of every finite double above one is a finite double from `2^-60` to
`712`. -/
theorem naturalLog_within {y : Float} (hy : isFinite y = true) (h1 : 1 < value y) :
    Within (naturalLog y) (1 / 2 ^ 60) 712 := by
  obtain ⟨x, k, hm, hr, heq⟩ := logScaled_reduced hy h1
  rw [naturalLog_eq_logScaled hy h1, heq]
  exact logReduced_within hr hm

end LaneGate.Decimal
