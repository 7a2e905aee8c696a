import LaneGate.Proofs.Decimal.Whole
/-!
# Integers of any size as doubles

`Whole` covers the whole numbers below `2^53`, where every integer has a double. Past
that only some integers have one, and a double of integer value (`Integral`) is read
here on its integer form `±mant · 2^exp`:

* its mantissa has full width and its form is fixed by its value (`Integral.form`), so
  two doubles of one nonzero integer value are the same double (`Integral.eq`), and a
  double of value zero is `0` or `-0` (`Integral.eq_zero_or_eq_neg_zero`);
* negation and `Float.ofInt` keep the value: an integer that some double holds is made
  into that double (`Integral.ofInt`), at every size;
* the service's own test for a whole double (`isWhole`: no mantissa bit below the
  units place) gives a double of integer value, its whole part (`integral_wholePart`);
* the floor of a finite double's exact value (`value`) is its rank counted in whole
  units (`floor_value`), which is its whole part when it is not below zero
  (`wholePart_eq_floor`).
-/

namespace LaneGate.Decimal

open Float.Model UnpackedFloat

/-! ### Whole parts -/

/-- The exact value of a double, read off its rank: a finite double's rank counts
least subnormals `2^-1074`. -/
def value (x : Float) : ℚ := (rank x : ℚ) / 2 ^ 1074

theorem floor_value (x : Float) : ⌊value x⌋ = rank x / ((2 ^ 1074 : Nat) : Int) := by
  rw [value, ← Rat.floor_intCast_div_natCast, Nat.cast_pow, Nat.cast_ofNat]

/-- The whole part of `m · 2^e`, as `floorScaled` takes it, is the number of whole units
in its count of least subnormals. -/
theorem floorScaled_eq_div (m : Nat) {e : Int} (he : -1074 ≤ e) :
    floorScaled m e 0 = m * 2 ^ (e + 1074).toNat / 2 ^ 1074 := by
  simp only [floorScaled, Nat.pow_eq, Int.neg_zero, Int.toNat_zero, Nat.pow_zero, Nat.mul_one]
  rcases le_or_gt 0 e with hpos | hneg
  · rw [show (-e).toNat = 0 by omega, Nat.pow_zero, Nat.div_one,
      show (e + 1074).toNat = e.toNat + 1074 by omega, Nat.pow_add, ← Nat.mul_assoc,
      Nat.mul_div_cancel _ (Nat.two_pow_pos _)]
  · -- a fractional exponent: `2^1074` splits into the exponent's part and the rest
    have hsplit : (2 : Nat) ^ 1074 = 2 ^ (-e).toNat * 2 ^ (e + 1074).toNat := by
      rw [← Nat.pow_add]; congr 1; omega
    rw [show e.toNat = 0 by omega, Nat.pow_zero, Nat.mul_one, hsplit,
      Nat.mul_div_mul_right _ _ (Nat.two_pow_pos _)]

theorem apply_signOf (neg : Bool) (n : Int) : (signOf neg).apply n = if neg then -n else n := by
  cases neg <;> rfl

/-- An integer's magnitude with the integer's sign is the integer. -/
theorem apply_signOf_natAbs (z : Int) (n : Nat) :
    (signOf (decide (z < 0))).apply ((z.natAbs * n : Nat) : Int) = z * n := by
  rw [apply_signOf, Nat.cast_mul]
  rcases lt_or_ge z 0 with h | h
  · rw [if_pos (decide_eq_true h), Int.ofNat_natAbs_of_nonpos h.le, Int.neg_mul, Int.neg_neg]
  · rw [if_neg (by simpa using h), Int.natAbs_of_nonneg h]

/-- The whole part of a finite double is its magnitude's whole units, with its sign. -/
theorem wholePart_eq (x : Float) :
    wholePart x = (signOf (Binary.ofFloat x).neg).apply
      (((Binary.ofFloat x).mant * 2 ^ ((Binary.ofFloat x).exp + 1074).toNat / 2 ^ 1074 : Nat) : Int) := by
  rw [apply_signOf, ← floorScaled_eq_div _ (exp_ofFloat x)]
  rfl

/-- A finite double that is not below zero has its floor as its whole part. -/
theorem wholePart_eq_floor {x : Float} (hx : isFinite x = true) (h0 : 0 ≤ rank x) :
    wholePart x = ⌊value x⌋ := by
  rw [floor_value, wholePart_eq, rank_eq hx]
  rw [rank_eq hx] at h0
  generalize Binary.ofFloat x = b at h0 ⊢
  obtain ⟨neg, m, e⟩ := b
  dsimp only at h0 ⊢
  generalize m * 2 ^ (e + 1074).toNat = N at h0 ⊢
  cases neg
  · exact (Int.natCast_div N _).symm
  · -- a negative sign with a rank not below zero: the magnitude is zero
    simp only [signOf, if_true, Sign.apply] at h0 ⊢
    have hN : N = 0 := by omega
    subst hN
    rw [Nat.zero_div, Nat.cast_zero, Int.neg_zero, Int.zero_ediv]

/-- A double passes the whole test exactly when its count of least subnormals is a
multiple of `2^1074`. -/
theorem dvd_of_isWhole {x : Float} (hw : isWhole x = true) :
    2 ^ 1074 ∣ (Binary.ofFloat x).mant * 2 ^ ((Binary.ofFloat x).exp + 1074).toNat := by
  have he := exp_ofFloat x
  unfold isWhole at hw
  generalize Binary.ofFloat x = b at hw he ⊢
  obtain ⟨neg, m, e⟩ := b
  simp only [Nat.pow_eq, beq_iff_eq] at hw he ⊢
  rcases le_or_gt 0 e with hpos | hneg
  · rw [show (e + 1074).toNat = e.toNat + 1074 by omega, Nat.pow_add]
    exact Dvd.dvd.mul_left (Nat.dvd_mul_left _ _) _
  · obtain ⟨c, rfl⟩ := Nat.dvd_of_mod_eq_zero hw
    have hsplit : (2 : Nat) ^ 1074 = 2 ^ (-e).toNat * 2 ^ (e + 1074).toNat := by
      rw [← Nat.pow_add]; congr 1; omega
    rw [hsplit]
    exact Nat.mul_dvd_mul (Nat.dvd_mul_right _ _) (Nat.dvd_refl _)

/-- A finite double that passes the whole test holds its whole part. -/
theorem integral_wholePart {x : Float} (hx : isFinite x = true) (hw : isWhole x = true) :
    Integral x (wholePart x) := by
  refine ⟨hx, ?_⟩
  have hd := dvd_of_isWhole hw
  rw [rank_eq hx, wholePart_eq]
  generalize (Binary.ofFloat x).mant * 2 ^ ((Binary.ofFloat x).exp + 1074).toNat = N at hd ⊢
  rw [apply_signOf, apply_signOf]
  have hN : ((N / 2 ^ 1074 : Nat) : Int) * 2 ^ 1074 = N := by
    exact_mod_cast Nat.div_mul_cancel hd
  split
  · rw [Int.neg_mul, hN]
  · exact hN.symm

/-! ### The form of an integer's double -/

/-- Two full-width mantissas scaled to one number are the same, at the same scale. -/
theorem full_width_unique {m m' a b : Nat} (lo : 2 ^ 52 ≤ m) (hi : m < 2 ^ 53) (lo' : 2 ^ 52 ≤ m')
    (hi' : m' < 2 ^ 53) (h : m * 2 ^ a = m' * 2 ^ b) : m = m' ∧ a = b := by
  have hL : m.log2 = 52 := (Nat.log2_eq_iff (by omega)).2 ⟨lo, hi⟩
  have hL' : m'.log2 = 52 := (Nat.log2_eq_iff (by omega)).2 ⟨lo', hi'⟩
  have hlog := congrArg Nat.log2 h
  rw [← Nat.shiftLeft_eq, ← Nat.shiftLeft_eq, log2_shiftLeft (by omega), log2_shiftLeft (by omega),
    hL, hL'] at hlog
  have hab : a = b := by omega
  subst hab
  exact ⟨Nat.eq_of_mul_eq_mul_right (Nat.two_pow_pos a) h, rfl⟩

/-- The integer form of a double of nonzero integer value: the value's sign, a
full-width mantissa, an exponent in range, and a magnitude of the value's size. -/
theorem Integral.form {x : Float} {z : Int} (h : Integral x z) (hz : z ≠ 0) :
    (Binary.ofFloat x).neg = decide (z < 0) ∧ 2 ^ 52 ≤ (Binary.ofFloat x).mant ∧
      (Binary.ofFloat x).mant < 2 ^ 53 ∧ -1074 ≤ (Binary.ofFloat x).exp ∧
      (Binary.ofFloat x).exp ≤ 971 ∧
      (Binary.ofFloat x).mant * 2 ^ ((Binary.ofFloat x).exp + 1074).toNat = z.natAbs * 2 ^ 1074 := by
  have hr := h.rank
  rw [rank_eq h.finite] at hr
  have hm : (Binary.ofFloat x).mant ≠ 0 := by
    intro h0
    rw [h0, Nat.zero_mul, Nat.cast_zero] at hr
    have : (signOf (Binary.ofFloat x).neg).apply 0 = 0 := by cases signOf (Binary.ofFloat x).neg <;> rfl
    rw [this] at hr
    have : z * 2 ^ 1074 ≠ 0 := Int.mul_ne_zero hz (by positivity)
    exact this hr.symm
  obtain ⟨hpos, hlt, hlo, hhi, hfull⟩ := valid_ofFloat h.finite hm
  generalize Binary.ofFloat x = b at hr hpos hlt hlo hhi hfull ⊢
  obtain ⟨neg, m, e⟩ := b
  dsimp only at hr hpos hlt hlo hhi hfull ⊢
  have hmag : m * 2 ^ (e + 1074).toNat = z.natAbs * 2 ^ 1074 := by
    rw [apply_signOf] at hr
    have habs := congrArg Int.natAbs hr
    split at habs <;> simpa [Int.natAbs_mul] using habs
  have hneg : neg = decide (z < 0) := by
    rw [apply_signOf] at hr
    have hM : (0 : Int) < ((m * 2 ^ (e + 1074).toNat : Nat) : Int) := by
      exact_mod_cast Nat.mul_pos hpos (Nat.two_pow_pos _)
    have h2 : (0 : Int) < 2 ^ 1074 := by positivity
    cases neg
    · simp only [Bool.false_eq_true, if_false] at hr
      have : 0 < z * 2 ^ 1074 := hr ▸ hM
      exact (decide_eq_false (not_lt.2 (pos_of_mul_pos_left this h2.le).le)).symm
    · simp only [if_true] at hr
      have : z * 2 ^ 1074 < 0 := by omega
      exact (decide_eq_true (neg_of_mul_neg_left this h2.le)).symm
  have hwide : 2 ^ 52 ≤ m := by
    rcases hfull with hfull | hfull
    · exact hfull
    · subst hfull
      rw [show ((-1074 : Int) + 1074).toNat = 0 from rfl, Nat.pow_zero, Nat.mul_one] at hmag
      have : 2 ^ 1074 ≤ z.natAbs * 2 ^ 1074 := Nat.le_mul_of_pos_left _ (Int.natAbs_pos.2 hz)
      have hbig : 2 ^ 53 < 2 ^ 1074 := Nat.pow_lt_pow_right (by decide) (by decide)
      omega
  exact ⟨hneg, hwide, hlt, hlo, hhi, hmag⟩

/-- A double of nonzero integer value unpacks to its full-width form. -/
theorem Integral.unpack_eq {x : Float} {z : Int} (h : Integral x z) (hz : z ≠ 0) :
    ∃ hm, x.toModel.unpack = .finite (signOf (decide (z < 0))) (Binary.ofFloat x).mant
      (Binary.ofFloat x).exp hm := by
  obtain ⟨hneg, hwide, -⟩ := h.form hz
  rw [unpack_eq_toUnpacked h.finite, Binary.toUnpacked, dif_pos (by omega), hneg]
  exact ⟨_, rfl⟩

/-- Two doubles of one nonzero integer value are the same double. -/
theorem Integral.eq {x y : Float} {z : Int} (hx : Integral x z) (hy : Integral y z) (hz : z ≠ 0) :
    x = y := by
  obtain ⟨hxn, hxw, hxt, hxlo, -, hxm⟩ := hx.form hz
  obtain ⟨hyn, hyw, hyt, hylo, -, hym⟩ := hy.form hz
  obtain ⟨hmant, hexp⟩ := full_width_unique hxw hxt hyw hyt (hxm.trans hym.symm)
  have hb : Binary.ofFloat x = Binary.ofFloat y := by
    generalize Binary.ofFloat x = b at hxn hmant hexp hxlo ⊢
    generalize Binary.ofFloat y = c at hyn hmant hexp hylo ⊢
    obtain ⟨bn, bm, be⟩ := b
    obtain ⟨cn, cm, ce⟩ := c
    dsimp only at hxn hyn hmant hexp hxlo hylo
    rw [hxn, hyn, hmant, show be = ce by omega]
  rw [← toFloat_ofFloat x, ← toFloat_ofFloat y, hb]

/-- A double of value zero is one of the two zeros. -/
theorem Integral.eq_zero_or_eq_neg_zero {x : Float} (h : Integral x 0) : x = 0 ∨ x = -0 := by
  have hr := h.rank
  rw [rank_eq h.finite, Int.zero_mul, apply_signOf] at hr
  have hm : (Binary.ofFloat x).mant = 0 := by
    have hM : (Binary.ofFloat x).mant * 2 ^ ((Binary.ofFloat x).exp + 1074).toNat = 0 := by
      split at hr <;> omega
    rcases Nat.mul_eq_zero.1 hM with h0 | h0
    · exact h0
    · exact absurd h0 (Nat.pos_iff_ne_zero.1 (Nat.two_pow_pos _))
  have he := exp_ofFloat_of_mant_eq_zero x hm
  rw [← toFloat_ofFloat x]
  generalize Binary.ofFloat x = b at hm he
  obtain ⟨neg, m, e⟩ := b
  dsimp only at hm he
  subst hm he
  cases neg
  · exact .inl (Float.toBits_inj.1 (by decide))
  · exact .inr (Float.toBits_inj.1 (by decide))

/-! ### Making integers into doubles -/

/-- The service's test for a finite double on its bits agrees with the model's: a
double is finite exactly when it is neither not-a-number nor an infinity. -/
theorem isFinite_eq (x : Float) : isFinite x = !(x.isNaN || x.isInf) := by
  cases hf : isFinite x with
  | true =>
    show true = !(x.toModel.unpack.isNaN || x.toModel.unpack.isInf)
    rw [unpack_eq_toUnpacked hf, Binary.toUnpacked]
    split <;> rfl
  | false =>
    show false = !(x.toModel.unpack.isNaN || x.toModel.unpack.isInf)
    rcases unpack_of_isFinite_eq_false hf with hn | ⟨s, hn⟩ <;> rw [hn] <;> rfl

theorem isFinite_of_unpack {x : Float} {s : Sign} {m : Nat} {e : Int} {hm : 0 < m}
    (hu : x.toModel.unpack = .finite s m e hm) : isFinite x = true := by
  cases hf : isFinite x with
  | true => rfl
  | false => rcases unpack_of_isFinite_eq_false hf with hn | ⟨t, hn⟩ <;> rw [hn] at hu <;> cases hu

theorem isFinite_of_unpack_zero {x : Float} {s : Sign} (hu : x.toModel.unpack = .zero s) :
    isFinite x = true := by
  cases hf : isFinite x with
  | true => rfl
  | false => rcases unpack_of_isFinite_eq_false hf with hn | ⟨t, hn⟩ <;> rw [hn] at hu <;> cases hu

theorem apply_neg (s : Sign) (n : Int) : (-s).apply n = -(s.apply n) := by
  cases s
  · exact (Int.neg_neg n).symm
  · rfl

/-- Negation keeps a double integral, with the value negated. -/
theorem Integral.neg {x : Float} {z : Int} (h : Integral x z) : Integral (-x) (-z) := by
  have hneg : (-x).toModel.unpack =
      UnpackedFloat.unpack binary64 (UnpackedFloat.pack binary64 x.toModel.unpack.neg) := rfl
  by_cases hz : z = 0
  · -- a zero: the other zero
    subst hz
    have hu : ∃ s, x.toModel.unpack = .zero s := by
      rcases h.eq_zero_or_eq_neg_zero with rfl | rfl
      · exact ⟨_, rfl⟩
      · exact ⟨_, rfl⟩
    obtain ⟨s, hs⟩ := hu
    rw [hs, UnpackedFloat.neg, unpack_pack_zero] at hneg
    exact ⟨isFinite_of_unpack_zero hneg, by rw [Decimal.rank, hneg, Int.neg_zero, Int.zero_mul]; rfl⟩
  · obtain ⟨-, hwide, hlt, hlo, hhi, hmag⟩ := h.form hz
    obtain ⟨hm, hu⟩ := h.unpack_eq hz
    rw [hu, UnpackedFloat.neg, unpack_pack_full _ hwide hlt hlo hhi] at hneg
    refine ⟨isFinite_of_unpack hneg, ?_⟩
    rw [Decimal.rank, hneg, rankOf, apply_neg, hmag, apply_signOf_natAbs, Int.neg_mul, Nat.cast_pow,
      Nat.cast_ofNat]

/-- A natural number that some double holds is made into a double of that value: below
`2^53` exactly as `Whole` says, above that through the model's reading of its digits,
which drops only zero bits. -/
theorem Integral.ofNat {x : Float} {n : Nat} (h : Integral x n) (hn : 0 < n) :
    Integral (Float.ofNat n) n := by
  by_cases hsmall : n < 2 ^ 53
  · exact (Whole.toFloat hsmall).integral
  have hz : (n : Int) ≠ 0 := by exact_mod_cast hn.ne'
  obtain ⟨-, hwide, hlt, hlo, hhi, hmag⟩ := h.form hz
  generalize Binary.ofFloat x = b at hwide hlt hlo hhi hmag
  obtain ⟨neg, m, e⟩ := b
  dsimp only at hwide hlt hlo hhi hmag
  rw [Int.natAbs_natCast] at hmag
  have hexp : 0 ≤ e := by
    by_contra hneg
    have hsplit : (2 : Nat) ^ 1074 = 2 ^ (-e).toNat * 2 ^ (e + 1074).toNat := by
      rw [← Nat.pow_add]; congr 1; omega
    rw [hsplit, ← Nat.mul_assoc] at hmag
    have := Nat.eq_of_mul_eq_mul_right (Nat.two_pow_pos _) hmag
    have : m < n * 2 ^ (-e).toNat := by
      calc m < 2 ^ 53 := hlt
        _ ≤ n := by omega
        _ ≤ n * 2 ^ (-e).toNat := Nat.le_mul_of_pos_right _ (Nat.two_pow_pos _)
    omega
  have hn' : n = m * 2 ^ e.toNat := by
    rw [show (e + 1074).toNat = e.toNat + 1074 by omega, Nat.pow_add, ← Nat.mul_assoc] at hmag
    exact (Nat.eq_of_mul_eq_mul_right (Nat.two_pow_pos _) hmag).symm
  have hu : (Float.ofNat n).toModel.unpack = .finite .positive m e (by omega) := by
    show (Float.ofScientific n false 0).toModel.unpack = _
    unfold Float.ofScientific
    rw [dif_neg (fun hc => hsmall hc.1)]
    show UnpackedFloat.unpack binary64 (UnpackedFloat.pack binary64
      (UnpackedFloat.ofScientific binary64 n 0)) = _
    unfold UnpackedFloat.ofScientific
    have hbits : (0 : Int) ≤ 2 ^ binary64.exponentBits := by positivity
    rw [dif_neg (by omega), if_neg (by decide), if_neg (by omega), if_pos (le_refl _)]
    show UnpackedFloat.unpack binary64 (UnpackedFloat.pack binary64 (roundWithAccuracy binary64
      (.positive * .positive) ((n <<< 53) * 10 ^ (0 : Int).toNat) (-53 + 0) .exact)) = _
    rw [show (n <<< 53) * 10 ^ (0 : Int).toNat = m * 2 ^ (e.toNat + 53) by
        rw [hn', Nat.shiftLeft_eq, Int.toNat_zero, Nat.pow_zero, Nat.mul_one, Nat.mul_assoc,
          ← Nat.pow_add],
      show (-53 + 0 : Int) = e - ((e.toNat + 53 : Nat) : Int) by omega,
      roundWithAccuracy_full _ hwide hlt hlo, unpack_pack_full _ hwide hlt hlo hhi]
    rfl
  refine ⟨isFinite_of_unpack hu, ?_⟩
  rw [Decimal.rank, hu, rankOf, hmag, Nat.cast_mul, Nat.cast_pow, Nat.cast_ofNat]
  rfl

/-- An integer that some double holds is made into a double of that value. -/
theorem Integral.ofInt {x : Float} {z : Int} (h : Integral x z) : Integral (Float.ofInt z) z := by
  cases z with
  | ofNat n =>
    rcases Nat.eq_zero_or_pos n with rfl | hn
    · exact Whole.zero.integral
    · exact h.ofNat hn
  | negSucc n =>
    have hpos : Integral (-x) ((n + 1 : Nat) : Int) := by
      have := h.neg
      rwa [Int.neg_negSucc] at this
    have := (hpos.ofNat (Nat.succ_pos n)).neg
    exact this

end LaneGate.Decimal
