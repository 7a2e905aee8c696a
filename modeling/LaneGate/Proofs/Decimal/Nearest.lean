import LaneGate.Proofs.Decimal.Shortest
/-!
# A decimal reads as the nearest double

`ofDecimal n p` reads `n · 10^p` through `nearestRatio` of two integers: it finds
the binary exponent that leaves a quotient of 53 bits (`quotientExponent`, an
estimate from the two binary lengths and two corrections), never below the
subnormal exponent, divides once, rounds the rest half to even, and carries a
quotient of `2^53` into the next exponent.

The estimate is off by at most one, so one correction already lands on the only
exponent that fits (`quotientExponent_fits`). The rounding is that of
`roundHalfEven` on the exact quotient. Together they give the main statement,
`ofDecimal_of_holds`: a decimal inside the rounding interval of a finite nonzero
double reads as exactly that double.
-/

namespace LaneGate.Decimal

/-! ## The quotient exponent -/

/-- The quotient `r / 2^e` has 53 bits. -/
def Fits (r : ℚ) (e : Int) : Prop := 2 ^ 52 ≤ r / 2 ^ e ∧ r / 2 ^ e < 2 ^ 53

theorem div_zpow_sub_one (r : ℚ) (e : Int) : r / 2 ^ (e - 1) = 2 * (r / 2 ^ e) := by
  rw [zpow_sub_one₀ (by norm_num)]
  field_simp

theorem div_zpow_add_one (r : ℚ) (e : Int) : r / 2 ^ (e + 1) = r / 2 ^ e / 2 := by
  rw [zpow_add_one₀ (by norm_num)]
  field_simp

/-- A smaller exponent leaves at least twice the quotient. -/
theorem two_mul_div_zpow_le {r : ℚ} (hr : 0 ≤ r) {a b : Int} (h : a < b) :
    2 * (r / 2 ^ b) ≤ r / 2 ^ a := by
  have hsplit : (2 : ℚ) ^ b = 2 ^ (b - a) * 2 ^ a := by
    rw [← zpow_add₀ (by norm_num)]
    ring_nf
  have htwo : (2 : ℚ) ≤ 2 ^ (b - a) := by
    calc (2 : ℚ) = 2 ^ (1 : Int) := by norm_num
      _ ≤ 2 ^ (b - a) := zpow_le_zpow_right₀ (by norm_num) (by omega)
  have heq : r / 2 ^ a = r / 2 ^ b * 2 ^ (b - a) := by
    rw [hsplit]
    field_simp
  have hq : 0 ≤ r / 2 ^ b := by positivity
  rw [heq]
  nlinarith

/-- An exponent that leaves at least 52 bits is at most the one that fits. -/
theorem Fits.le_of_le {r : ℚ} (hr : 0 ≤ r) {a b : Int} (ha : Fits r a) (hb : 2 ^ 52 ≤ r / 2 ^ b) :
    b ≤ a := by
  by_contra h
  have := two_mul_div_zpow_le hr (show a < b by omega)
  linarith [ha.2]

/-- An exponent that leaves fewer than 53 bits is at least the one that fits. -/
theorem Fits.le_of_lt {r : ℚ} (hr : 0 ≤ r) {a b : Int} (ha : Fits r a) (hb : r / 2 ^ b < 2 ^ 53) :
    a ≤ b := by
  by_contra h
  have := two_mul_div_zpow_le hr (show b < a by omega)
  linarith [ha.1]

/-- At most one exponent fits. -/
theorem Fits.unique {r : ℚ} (hr : 0 ≤ r) {a b : Int} (ha : Fits r a) (hb : Fits r b) : a = b :=
  le_antisymm (hb.le_of_le hr ha.1) (ha.le_of_le hr hb.1)

/-- The estimate from the binary lengths leaves between 51 and 53 bits. -/
theorem estimate_bounds {num den : Nat} (hnum : 0 < num) (hden : 0 < den) :
    2 ^ 51 < (num : ℚ) / den / 2 ^ ((Nat.log2 num : Int) - (Nat.log2 den : Int) - 52) ∧
      (num : ℚ) / den / 2 ^ ((Nat.log2 num : Int) - (Nat.log2 den : Int) - 52) < 2 ^ 53 := by
  have hA : ((2 ^ Nat.log2 num : Nat) : ℚ) ≤ num := Nat.cast_le.2 (Nat.log2_self_le (by omega))
  have hA' : (num : ℚ) < ((2 ^ (Nat.log2 num + 1) : Nat) : ℚ) := Nat.cast_lt.2 Nat.lt_log2_self
  have hB : ((2 ^ Nat.log2 den : Nat) : ℚ) ≤ den := Nat.cast_le.2 (Nat.log2_self_le (by omega))
  have hB' : (den : ℚ) < ((2 ^ (Nat.log2 den + 1) : Nat) : ℚ) := Nat.cast_lt.2 Nat.lt_log2_self
  push_cast at hA hA' hB hB'
  rw [pow_succ] at hA' hB'
  have hpow : (2 : ℚ) ^ ((Nat.log2 num : Int) - (Nat.log2 den : Int) - 52) =
      2 ^ Nat.log2 num / (2 ^ Nat.log2 den * 2 ^ 52) := by
    rw [zpow_sub₀ (by norm_num), zpow_sub₀ (by norm_num), zpow_natCast, zpow_natCast]
    norm_num
    field_simp
  have hd : (0 : ℚ) < den := by exact_mod_cast hden
  have hA0 : (0 : ℚ) < 2 ^ Nat.log2 num := by positivity
  have hB0 : (0 : ℚ) < 2 ^ Nat.log2 den := by positivity
  have hform : (num : ℚ) / den / (2 ^ Nat.log2 num / (2 ^ Nat.log2 den * 2 ^ 52)) =
      num * (2 ^ Nat.log2 den * 2 ^ 52) / (den * 2 ^ Nat.log2 num) := by
    field_simp
  rw [hpow, hform]
  constructor
  · rw [lt_div_iff₀ (by positivity)]
    nlinarith
  · rw [div_lt_iff₀ (by positivity)]
    nlinarith

theorem floor_lt_iff {y : ℚ} (hy : 0 ≤ y) (k : Nat) : ⌊y⌋₊ < Nat.pow 2 k ↔ y < 2 ^ k := by
  rw [Nat.floor_lt hy, Nat.pow_eq, Nat.cast_pow, Nat.cast_ofNat]

theorem le_floor_iff {y : ℚ} (hy : 0 ≤ y) (k : Nat) : ⌊y⌋₊ ≥ Nat.pow 2 k ↔ 2 ^ k ≤ y := by
  rw [ge_iff_le, Nat.le_floor_iff hy, Nat.pow_eq, Nat.cast_pow, Nat.cast_ofNat]

/-- The corrected estimate is the exponent that leaves a quotient of 53 bits. -/
theorem quotientExponent_fits {num den : Nat} (hnum : 0 < num) (hden : 0 < den) :
    Fits ((num : ℚ) / den) (quotientExponent num den) := by
  have hr : (0 : ℚ) ≤ (num : ℚ) / den := by positivity
  have hest := estimate_bounds hnum hden
  have hlt : ∀ e : Int, ⌊(num : ℚ) / den / 2 ^ e⌋₊ < Nat.pow 2 52 ↔ (num : ℚ) / den / 2 ^ e < 2 ^ 52 :=
    fun e => floor_lt_iff (by positivity) 52
  have hge : ∀ e : Int, ⌊(num : ℚ) / den / 2 ^ e⌋₊ ≥ Nat.pow 2 53 ↔ 2 ^ 53 ≤ (num : ℚ) / den / 2 ^ e :=
    fun e => le_floor_iff (by positivity) 53
  unfold quotientExponent Fits
  simp only [quotientAt_fst, fracBits, hlt, hge]
  generalize (Nat.log2 num : Int) - (Nat.log2 den : Int) - 52 = est at hest ⊢
  -- the estimate is at most one too large, so the first correction settles it
  split_ifs <;> (try simp only [div_zpow_sub_one, div_zpow_add_one] at *) <;> constructor <;> linarith

/-! ## Rounding the quotient -/

/-- The quotient rounded to an integer, a tie going to the even one. -/
def roundHalfEven (y : ℚ) : Nat :=
  if compare (y - ⌊y⌋₊) (1 / 2) == .gt ||
      (compare (y - ⌊y⌋₊) (1 / 2) == .eq && ⌊y⌋₊ % 2 == 1) then ⌊y⌋₊ + 1
  else ⌊y⌋₊

/-- Rounding half to even gives the integer within half of the quotient; at an exact
half, the even one. -/
theorem roundHalfEven_eq {y : ℚ} {m : Nat} (hy : 0 ≤ y) (hlo : (m : ℚ) - 1 / 2 ≤ y) (hhi : y ≤ m + 1 / 2)
    (htie : y = m - 1 / 2 ∨ y = m + 1 / 2 → m % 2 = 0) : roundHalfEven y = m := by
  unfold roundHalfEven
  rcases lt_or_ge y m with hlt | hge
  · -- below the integer: the floor is the one before it, and the rest is at least a half
    have hm : 1 ≤ m := by
      by_contra h0
      have : m = 0 := by omega
      subst this
      push_cast at hlo hlt
      linarith
    have hfl : ⌊y⌋₊ = m - 1 := by
      rw [Nat.floor_eq_iff hy]
      push_cast [hm]
      constructor <;> linarith
    rw [hfl]
    push_cast [hm]
    rcases lt_or_eq_of_le hlo with hlo' | heq
    · rw [(compare_gt_iff_gt).2 (by linarith)]
      simp only [beq_self_eq_true, Bool.true_or, if_true]
      omega
    · have heven := htie (Or.inl heq.symm)
      have hodd : (m - 1) % 2 = 1 := by omega
      rw [show y - (m - 1) = 1 / 2 by linarith, compare_eq_iff_eq.2 rfl]
      simp [hodd]
      omega
  · -- at or above the integer: the floor is the integer, and the rest is at most a half
    have hfl : ⌊y⌋₊ = m := by
      rw [Nat.floor_eq_iff hy]
      constructor <;> linarith
    rw [hfl]
    rcases lt_or_eq_of_le hhi with hhi' | heq
    · rw [(compare_lt_iff_lt).2 (by linarith)]
      simp
    · have heven := htie (Or.inr heq)
      rw [show y - m = 1 / 2 by linarith, compare_eq_iff_eq.2 rfl]
      simp [heven]

/-! ## The nearest double -/

theorem quotientAt_eq {num den : Nat} (hden : 0 < den) (e : Int) :
    quotientAt num den e = (⌊(num : ℚ) / den / 2 ^ e⌋₊,
      compare ((num : ℚ) / den / 2 ^ e - ⌊(num : ℚ) / den / 2 ^ e⌋₊) (1 / 2)) :=
  Prod.ext (quotientAt_fst num den e) (quotientAt_snd hden e)

/-- `nearestRatio` rounds the quotient at the fitting exponent (or the subnormal
one) half to even, and carries `2^53` into the next exponent. -/
theorem nearestRatio_eq (neg : Bool) {num den : Nat} (hden : 0 < den) :
    nearestRatio neg num den =
      let e := max (quotientExponent num den) (-1074)
      let q := roundHalfEven ((num : ℚ) / den / 2 ^ e)
      let (q, e) := if q = Nat.pow 2 (fracBits + 1) then (Nat.pow 2 fracBits, e + 1) else (q, e)
      if e > 971 then signed neg infinity else Binary.toFloat ⟨neg, q, e⟩ := by
  unfold nearestRatio roundHalfEven
  simp only [quotientAt_eq hden]

/-- A rounded quotient below `2^53` at an exponent in range is the result. -/
theorem nearestRatio_of_round (neg : Bool) {num den : Nat} (hden : 0 < den) {E : Int} {q : Nat}
    (hE : max (quotientExponent num den) (-1074) = E) (hq : roundHalfEven ((num : ℚ) / den / 2 ^ E) = q)
    (hq' : q < 2 ^ 53) (hE' : E ≤ 971) : nearestRatio neg num den = Binary.toFloat ⟨neg, q, E⟩ := by
  have h1 : q ≠ 2 ^ (52 + 1) := by norm_num; omega
  have h2 : ¬ E > 971 := by omega
  rw [nearestRatio_eq neg hden]
  simp only [hE, hq, fracBits, Nat.pow_eq, h1, h2, if_false]

/-- A quotient that rounds up to `2^53` is carried into the next exponent. -/
theorem nearestRatio_of_carry (neg : Bool) {num den : Nat} (hden : 0 < den) {E : Int}
    (hE : max (quotientExponent num den) (-1074) = E) (hq : roundHalfEven ((num : ℚ) / den / 2 ^ E) = 2 ^ 53)
    (hE' : E + 1 ≤ 971) : nearestRatio neg num den = Binary.toFloat ⟨neg, 2 ^ 52, E + 1⟩ := by
  have h2 : ¬ E + 1 > 971 := by omega
  rw [nearestRatio_eq neg hden]
  simp only [hE, hq, fracBits, Nat.pow_eq, Nat.reduceAdd, if_true, h2, if_false]

/-- What the rounding interval of a double says of `w / 2^e`: it lies within half a
place above and a quarter or half a place below, and reaches an end only for an
even mantissa. -/
theorem Rounding.Holds.bounds {m : Nat} (hm : 0 < m) {e : Int} {w : ℚ}
    (h : (Rounding.of m e).Holds e w) :
    let g : ℚ := ((if m = Nat.pow 2 fracBits ∧ e > -1074 then 1 else 2 : Nat) : ℚ)
    m - g / 4 ≤ w / 2 ^ e ∧ w / 2 ^ e ≤ m + 1 / 2 ∧
      (w / 2 ^ e = m - g / 4 ∨ w / 2 ^ e = m + 1 / 2 → m % 2 = 0) := by
  intro g
  have hq : (0 : ℚ) < 2 ^ (e - 2) := by positivity
  unfold Rounding.Holds at h
  rw [low_of hm, high_of, closed_of] at h
  rw [two_zpow_eq]
  obtain ⟨hlow, hhigh⟩ := h
  have key : ∀ a : ℚ, (a * 2 ^ (e - 2) < w ↔ a / 4 < w / (4 * 2 ^ (e - 2))) ∧
      (w < a * 2 ^ (e - 2) ↔ w / (4 * 2 ^ (e - 2)) < a / 4) ∧
      (w = a * 2 ^ (e - 2) ↔ w / (4 * 2 ^ (e - 2)) = a / 4) := fun a => by
    refine ⟨?_, ?_, ?_⟩
    · rw [lt_div_iff₀ (by positivity)]
      constructor <;> intro <;> linarith
    · rw [div_lt_iff₀ (by positivity)]
      constructor <;> intro <;> linarith
    · rw [div_eq_iff (by positivity)]
      constructor <;> intro <;> linarith
  simp only [(key _).1, (key _).2.1, (key _).2.2] at hlow hhigh
  have e1 : (4 * (m : ℚ) - g) / 4 = m - g / 4 := by ring
  have e2 : (4 * (m : ℚ) + 2) / 4 = m + 1 / 2 := by ring
  rw [e1] at hlow
  rw [e2] at hhigh
  refine ⟨?_, ?_, ?_⟩
  · rcases hlow with h | ⟨-, h⟩ <;> linarith
  · rcases hhigh with h | ⟨-, h⟩ <;> linarith
  · rintro (h | h)
    · rcases hlow with h' | ⟨hc, -⟩
      · linarith
      · exact hc
    · rcases hhigh with h' | ⟨hc, -⟩
      · linarith
      · exact hc

/-- **A ratio inside the rounding interval of a double reads as that double.** -/
theorem nearestRatio_of_holds (neg : Bool) {num den : Nat} (hnum : 0 < num) (hden : 0 < den)
    {m : Nat} {e : Int} (hv : (⟨neg, m, e⟩ : Binary).Valid)
    (h : (Rounding.of m e).Holds e ((num : ℚ) / den)) :
    nearestRatio neg num den = Binary.toFloat ⟨neg, m, e⟩ := by
  obtain ⟨hm, hm', hlo, hhi, hnorm⟩ := hv
  dsimp only at hm hm' hlo hhi hnorm
  have hr : (0 : ℚ) ≤ (num : ℚ) / den := by positivity
  have hfit := quotientExponent_fits hnum hden
  obtain ⟨hb1, hb2, htie⟩ := Rounding.Holds.bounds hm h
  have hm53 : (m : ℚ) + 1 ≤ 2 ^ 53 := by exact_mod_cast hm'
  split_ifs at hb1 htie with hg
  · -- a power of two above the least normal: the low end is only a quarter place away
    obtain ⟨hpow, hgt⟩ := hg
    have hm2 : m = 2 ^ 52 := hpow
    have hm2' : (m : ℚ) = 2 ^ 52 := by rw [hm2]; norm_num
    push_cast at hb1 htie
    rcases lt_or_ge ((num : ℚ) / den / 2 ^ e) (2 ^ 52) with hbelow | habove
    · -- below the power of two the quotient fits one exponent lower and rounds up to `2^53`
      have hfit' : Fits ((num : ℚ) / den) (e - 1) := by
        unfold Fits
        rw [div_zpow_sub_one]
        constructor <;> linarith
      have hE : max (quotientExponent num den) (-1074) = e - 1 := by
        rw [hfit.unique hr hfit']
        omega
      have hq : roundHalfEven ((num : ℚ) / den / 2 ^ (e - 1)) = 2 ^ 53 := by
        rw [div_zpow_sub_one]
        apply roundHalfEven_eq (by positivity)
        · push_cast
          linarith
        · push_cast
          linarith
        · intro _
          decide
      rw [nearestRatio_of_carry neg hden hE hq (by omega), sub_add_cancel, hm2]
    · -- at or above it the quotient fits this exponent
      have hfit' : Fits ((num : ℚ) / den) e := ⟨habove, by linarith⟩
      have hE : max (quotientExponent num den) (-1074) = e := by
        rw [hfit.unique hr hfit']
        omega
      have hq : roundHalfEven ((num : ℚ) / den / 2 ^ e) = m :=
        roundHalfEven_eq (by positivity) (by linarith) hb2 (fun _ => by rw [hm2]; decide)
      exact nearestRatio_of_round neg hden hE hq hm' hhi
  · -- otherwise the interval reaches half a place either way
    rw [show ((2 : Nat) : ℚ) / 4 = 1 / 2 by norm_num] at hb1 htie
    have hE : max (quotientExponent num den) (-1074) = e := by
      rcases eq_or_lt_of_le hlo with heq | hgt
      · -- at the least exponent: whatever fits is not above it
        have := hfit.le_of_lt hr (show (num : ℚ) / den / 2 ^ e < 2 ^ 53 by linarith)
        omega
      · -- above it the mantissa is normal and not a power of two, so the quotient fits here
        have hne : m ≠ 2 ^ 52 := fun h2 => hg ⟨h2, hgt⟩
        have hbig : (2 : ℚ) ^ 52 + 1 ≤ m := by
          have : 2 ^ 52 + 1 ≤ m := by omega
          exact_mod_cast this
        rw [hfit.unique hr (show Fits ((num : ℚ) / den) e from ⟨by linarith, by linarith⟩)]
        omega
    have hq : roundHalfEven ((num : ℚ) / den / 2 ^ e) = m := roundHalfEven_eq (by positivity) hb1 hb2 htie
    exact nearestRatio_of_round neg hden hE hq hm' hhi

/-! ## Reading a decimal -/

/-- A positive number has as many digits as the power of ten above it. -/
theorem digitCount_bounds {n : Nat} (hn : 0 < n) :
    10 ^ (digitCount n - 1) ≤ n ∧ n < 10 ^ digitCount n := by
  have hpos : 0 < digitCount n := List.length_pos_iff.2 Nat.toDigits_ne_nil
  refine ⟨?_, (Nat.length_toDigits_le_iff (by norm_num) hpos).1 le_rfl⟩
  by_contra h
  rcases Nat.eq_zero_or_pos (digitCount n - 1) with h0 | h0
  · rw [h0] at h
    omega
  · -- fewer digits would do for a smaller number
    have hlt : n < 10 ^ (digitCount n - 1) := Nat.lt_of_not_le h
    have hle : digitCount n ≤ digitCount n - 1 := (Nat.length_toDigits_le_iff (by norm_num) h0).2 hlt
    omega

theorem two_pow_le_ten_pow : (2 : ℚ) ^ (1024 : Int) ≤ 10 ^ (310 : Int) := by
  -- split the exponents so that `norm_num` evaluates each power below its threshold
  rw [show (1024 : Int) = ((256 * 4 : Nat) : Int) from rfl,
    show (310 : Int) = ((155 * 2 : Nat) : Int) from rfl, zpow_natCast, zpow_natCast, pow_mul, pow_mul]
  norm_num

theorem two_pow_lt_ten_pow : (2 : ℚ) ^ 1075 < 10 ^ 331 := by
  rw [show 1075 = 215 * 5 from rfl, show 331 = 200 + 131 from rfl, pow_mul, pow_add]
  norm_num

/-- A value in the rounding interval of a valid double is at least half the least
subnormal and below `2^1024`. -/
theorem holds_range {m : Nat} {e : Int} {neg : Bool} (hv : (⟨neg, m, e⟩ : Binary).Valid) {w : ℚ}
    (h : (Rounding.of m e).Holds e w) : 2 ^ (-1075 : Int) ≤ w ∧ w < 2 ^ (1024 : Int) := by
  obtain ⟨hm, hm', hlo, hhi, -⟩ := hv
  dsimp only at hm hm' hlo hhi
  obtain ⟨hb1, hb2, -⟩ := Rounding.Holds.bounds hm h
  have he : (0 : ℚ) < 2 ^ e := by positivity
  have hg : ((if m = Nat.pow 2 fracBits ∧ e > -1074 then 1 else 2 : Nat) : ℚ) ≤ 2 := by
    split <;> norm_num
  have hm1 : (1 : ℚ) ≤ m := by exact_mod_cast hm
  have hm53 : (m : ℚ) + 1 ≤ 2 ^ 53 := by exact_mod_cast hm'
  have hlow : (2 : ℚ) ^ (-1074 : Int) ≤ 2 ^ e := zpow_le_zpow_right₀ (by norm_num) hlo
  have hhigh : (2 : ℚ) ^ e ≤ 2 ^ (971 : Int) := zpow_le_zpow_right₀ (by norm_num) hhi
  have hw : w = w / 2 ^ e * 2 ^ e := by field_simp
  constructor
  · -- at least half a place above zero
    have : (2 : ℚ) ^ (-1075 : Int) = 2 ^ (-1074 : Int) / 2 := by
      rw [show (-1075 : Int) = -1074 - 1 by norm_num, zpow_sub_one₀ (by norm_num)]
      ring
    rw [this, hw]
    nlinarith
  · -- below `2^53` places of the largest exponent
    have : (2 : ℚ) ^ (1024 : Int) = 2 ^ 53 * 2 ^ (971 : Int) := by
      rw [show (1024 : Int) = ((1024 : Nat) : Int) by rfl, show (971 : Int) = ((971 : Nat) : Int) by rfl,
        zpow_natCast, zpow_natCast, ← pow_add]
    calc w = w / 2 ^ e * 2 ^ e := hw
      _ ≤ (2 ^ 53 - 1 / 2) * 2 ^ e := mul_le_mul_of_nonneg_right (by linarith) he.le
      _ < 2 ^ 53 * 2 ^ e := by nlinarith
      _ ≤ 2 ^ 53 * 2 ^ (971 : Int) := mul_le_mul_of_nonneg_left hhigh (by positivity)
      _ = 2 ^ 1024 := this.symm

/-- **A decimal inside the rounding interval of a finite nonzero double reads as that
double.** -/
theorem ofDecimal_of_holds (neg : Bool) {n : Nat} {p : Int} {m : Nat} {e : Int}
    (hv : (⟨neg, m, e⟩ : Binary).Valid) (h : (Rounding.of m e).Holds e ((n : ℚ) * 10 ^ p)) :
    ofDecimal neg n p = Binary.toFloat ⟨neg, m, e⟩ := by
  obtain ⟨hwlo, hwhi⟩ := holds_range hv h
  have hn : 0 < n := by
    rcases Nat.eq_zero_or_pos n with h0 | h0
    · rw [h0, Nat.cast_zero, zero_mul] at hwlo
      have : (0 : ℚ) < 2 ^ (-1075 : Int) := by positivity
      linarith
    · exact h0
  obtain ⟨hd1, hd2⟩ := digitCount_bounds hn
  have hp : (0 : ℚ) < 10 ^ p := by positivity
  have hdlo : (10 : ℚ) ^ ((digitCount n : Int) - 1 + p) ≤ n * 10 ^ p := by
    have h1 : ((10 ^ (digitCount n - 1) : Nat) : ℚ) ≤ n := Nat.cast_le.2 hd1
    push_cast at h1
    rw [zpow_add₀ (by norm_num), show (digitCount n : Int) - 1 = ((digitCount n - 1 : Nat) : Int) by
      have := List.length_pos_iff.2 (Nat.toDigits_ne_nil (n := n) (b := 10))
      unfold digitCount
      omega, zpow_natCast]
    exact mul_le_mul_of_nonneg_right h1 hp.le
  have hdhi : (n : ℚ) * 10 ^ p < 10 ^ ((digitCount n : Int) + p) := by
    have h2 : (n : ℚ) < ((10 ^ digitCount n : Nat) : ℚ) := Nat.cast_lt.2 hd2
    push_cast at h2
    rw [zpow_add₀ (by norm_num), zpow_natCast]
    exact mul_lt_mul_of_pos_right h2 hp
  have hbig : ¬ (digitCount n : Int) + p > 310 := by
    intro hc
    have : (10 : ℚ) ^ (310 : Int) ≤ 10 ^ ((digitCount n : Int) - 1 + p) :=
      zpow_le_zpow_right₀ (by norm_num) (by omega)
    exact absurd (two_pow_le_ten_pow.trans (this.trans hdlo)) (not_le.2 hwhi)
  have hsmall : ¬ (digitCount n : Int) + p < -330 := by
    intro hc
    have h331 : (10 : ℚ) ^ ((digitCount n : Int) + p) ≤ 10 ^ (-331 : Int) :=
      zpow_le_zpow_right₀ (by norm_num) (by omega)
    have hpow : (10 : ℚ) ^ (-331 : Int) < 2 ^ (-1075 : Int) := by
      rw [zpow_neg, zpow_neg, inv_lt_inv₀ (by positivity) (by positivity)]
      exact_mod_cast two_pow_lt_ten_pow
    linarith
  have hnum : 0 < n * Nat.pow 10 p.toNat := Nat.mul_pos hn (by rw [Nat.pow_eq]; positivity)
  have hden : 0 < Nat.pow 10 (-p).toNat := by rw [Nat.pow_eq]; positivity
  have hval : ((n * Nat.pow 10 p.toNat : Nat) : ℚ) / ((Nat.pow 10 (-p).toNat : Nat) : ℚ) = n * 10 ^ p := by
    simp only [Nat.pow_eq]
    push_cast
    rw [← zpow_mul_pow_toNat_neg (by norm_num : (10 : ℚ) ≠ 0) p]
    field_simp
  unfold ofDecimal
  rw [if_neg (Nat.pos_iff_ne_zero.1 hn), if_neg hbig, if_neg hsmall]
  refine nearestRatio_of_holds neg hnum hden hv ?_
  rw [hval]
  exact h

end LaneGate.Decimal
