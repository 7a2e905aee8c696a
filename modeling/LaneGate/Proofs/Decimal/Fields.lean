import LaneGate.Proofs.Decimal.Order
/-!
# The bit fields of a double

The service reads a double off its bits: a sign bit, an exponent field and a stored
fraction (`fields`), giving the sign, integer mantissa and binary exponent of
`Binary.ofFloat`. Lean's model of doubles unpacks the same bits. For a finite double
the two readings agree (`unpack_eq_toUnpacked`): a zero of the sign when the
mantissa is zero, and otherwise the finite value `mant · 2^exp` of that sign.

So the order of doubles, which the model defines on unpacked values, can be read on
the integer form: a finite double's rank is its signed number of least subnormals
(`rank_eq`), and `≤` on doubles other than not-a-number is the order of ranks
(`le_iff_rank_le`). Main statement: a finite double of at least one has a whole part
of at least one (`one_le_wholePart`).

The integer form loses nothing: rebuilding the bits from it gives the double back
(`toFloat_ofFloat`), and the forms of the finite nonzero doubles are exactly the
`Binary.Valid` ones (`valid_ofFloat`).
-/

namespace LaneGate.Decimal

open Float.Model UnpackedFloat

@[simp] theorem toNat_unpackExponent (b : BitVec binary64.numBits) :
    (unpackExponent b : BitVec 11).toNat = b.toNat / 2 ^ 52 % 2 ^ 11 := by
  simp [unpackExponent, BitVec.extractLsb_toNat, Nat.shiftRight_eq_div_pow]

@[simp] theorem toNat_unpackMantissa (b : BitVec binary64.numBits) :
    (unpackMantissa b : BitVec 52).toNat = b.toNat % 2 ^ 52 := by
  simp [unpackMantissa, BitVec.extractLsb_toNat, Nat.shiftRight_eq_div_pow]

@[simp] theorem toNat_unpackSign (b : BitVec binary64.numBits) :
    (unpackSign b : BitVec 1).toNat = b.toNat / 2 ^ 63 := by
  simp [unpackSign, BitVec.extractLsb_toNat, Nat.shiftRight_eq_div_pow]
  have : b.toNat < 2 ^ 64 := b.isLt
  omega

/-- The sign a sign bit stands for. -/
def signOf (neg : Bool) : Sign := if neg then .negative else .positive

theorem ofBitVec_unpackSign (b : BitVec binary64.numBits) :
    Sign.ofBitVec (unpackSign b) = signOf (b.toNat / 2 ^ 63 == 1) := by
  have h := toNat_unpackSign b
  unfold Sign.ofBitVec signOf
  by_cases h0 : (unpackSign b : BitVec 1) = 0#1
  · have : (unpackSign b : BitVec 1).toNat = 0 := by rw [h0]; rfl
    rw [if_pos h0, if_neg (by simp; omega)]
  · have : (unpackSign b : BitVec 1).toNat ≠ 0 := fun h' =>
      h0 (BitVec.eq_of_toNat_eq (by simpa using h'))
    rw [if_neg h0, if_pos (by simp; omega)]

/-- The fields of a double are those of its model's bits. -/
theorem fields_eq (x : Float) : fields x =
    (x.toModel.toBits.toBitVec.toNat / 2 ^ 63 == 1, x.toModel.toBits.toBitVec.toNat / 2 ^ 52 % 2048,
      x.toModel.toBits.toBitVec.toNat % 2 ^ 52) := rfl

/-- A finite double in integer form as the model's unpacked value. -/
def Binary.toUnpacked (b : Binary) : UnpackedFloat :=
  if h : 0 < b.mant then .finite (signOf b.neg) b.mant b.exp h else .zero (signOf b.neg)

/-- The integer form of a bit pattern, as `Binary.ofFloat` reads it off a double's bits. -/
def Binary.ofBits (B : Nat) : Binary :=
  if B / 2 ^ 52 % 2048 = 0 then ⟨B / 2 ^ 63 == 1, B % 2 ^ 52, -1074⟩
  else ⟨B / 2 ^ 63 == 1, B % 2 ^ 52 + 2 ^ 52, ((B / 2 ^ 52 % 2048 : Nat) : Int) - 1075⟩

theorem ofFloat_eq_ofBits (x : Float) : Binary.ofFloat x = Binary.ofBits x.toBits.toNat := rfl

/-- The model unpacks bits whose exponent field is not all ones to their integer form. -/
theorem unpack_bits (b : BitVec binary64.numBits) (hx : b.toNat / 2 ^ 52 % 2048 ≠ 2047) :
    UnpackedFloat.unpack binary64 b = (Binary.ofBits b.toNat).toUnpacked := by
  have hE := toNat_unpackExponent b
  have hF := toNat_unpackMantissa b
  have hS := ofBitVec_unpackSign b
  unfold UnpackedFloat.unpack Binary.ofBits
  dsimp only
  have hne : @unpackExponent binary64 b ≠ -1#11 := by
    intro h
    have := congrArg BitVec.toNat h
    rw [hE] at this
    simp at this
    omega
  rw [if_neg hne, hS]
  by_cases hz : b.toNat / 2 ^ 52 % 2048 = 0
  · have h0 : @unpackExponent binary64 b = 0#11 :=
      BitVec.eq_of_toNat_eq (by rw [hE]; simpa using hz)
    rw [if_pos h0, if_pos hz]
    by_cases hm : @unpackMantissa binary64 b = 0#52
    · have hF0 : b.toNat % 2 ^ 52 = 0 := by rw [← hF, hm]; rfl
      rw [dif_pos hm, Binary.toUnpacked, dif_neg (by simp only [hF0]; omega)]
    · have hF0 : 0 < b.toNat % 2 ^ 52 := by
        rw [← hF]
        exact Nat.pos_of_ne_zero fun h' => hm (BitVec.eq_of_toNat_eq (by simpa using h'))
      rw [dif_neg hm, Binary.toUnpacked, dif_pos hF0]
      simp only [hF, hE, exponentBias_binary64]
      congr 1
      omega
  · have h0 : @unpackExponent binary64 b ≠ 0#11 := fun h => hz (by
      have := congrArg BitVec.toNat h
      rw [hE] at this
      simpa using this)
    have hmant : (1#1 ++ @unpackMantissa binary64 b).toNat =
        2 ^ 52 + (@unpackMantissa binary64 b).toNat := by
      rw [BitVec.toNat_append, ← Nat.shiftLeft_add_eq_or_of_lt
        (@unpackMantissa binary64 b).isLt, Nat.shiftLeft_eq]
      simp
    rw [if_neg h0, if_neg hz, Binary.toUnpacked, dif_pos (by dsimp only; omega)]
    simp only [hmant, hF, hE, exponentBias_binary64]
    congr 1
    omega

/-- The model unpacks a finite double to its integer form. -/
theorem unpack_eq_toUnpacked {x : Float} (hx : isFinite x = true) :
    x.toModel.unpack = (Binary.ofFloat x).toUnpacked := by
  unfold isFinite at hx
  rw [fields_eq] at hx
  exact unpack_bits _ (by simpa using hx)

theorem isNaN_eq_false {x : Float} (hx : isFinite x = true) : x.isNaN = false := by
  show x.toModel.unpack.isNaN = false
  rw [unpack_eq_toUnpacked hx, Binary.toUnpacked]
  split <;> rfl

/-- The exponent of a finite double's integer form is never below that of the least
subnormal. -/
theorem exp_ofFloat (x : Float) : -1074 ≤ (Binary.ofFloat x).exp := by
  unfold Binary.ofFloat
  dsimp only
  split
  · exact le_refl _
  · simp only [expBias]
    omega

/-- A finite double's rank is its signed number of least subnormals. -/
theorem rank_eq {x : Float} (hx : isFinite x = true) :
    rank x = (signOf (Binary.ofFloat x).neg).apply
      (((Binary.ofFloat x).mant * 2 ^ ((Binary.ofFloat x).exp + 1074).toNat : Nat) : Int) := by
  rw [rank, unpack_eq_toUnpacked hx, Binary.toUnpacked]
  split
  · rfl
  · rename_i hm
    rw [Nat.eq_zero_of_not_pos hm, Nat.zero_mul]
    cases signOf (Binary.ofFloat x).neg <;> rfl

theorem le_iff_unpack (x y : Float) : x ≤ y ↔ x.toModel.unpack.le y.toModel.unpack = true := by
  show decide (x.toModel ≤ y.toModel) = true ↔ _
  exact decide_eq_true_iff

/-- Doubles other than not-a-number are ordered by `≤` as their ranks are. -/
theorem le_iff_rank_le {x y : Float} (hx : x.isNaN = false) (hy : y.isNaN = false) :
    x ≤ y ↔ rank x ≤ rank y := by
  rw [le_iff_unpack, UnpackedFloat.le, compare_eq_rankOf (canonical_toModel hx) (canonical_toModel hy)]
  show (compare (rank x) (rank y)).isLE = true ↔ _
  rcases Int.lt_trichotomy (rank x) (rank y) with h | h | h
  · rw [Int.compare_eq_lt.2 h]; simp only [Ordering.isLE_lt, true_iff]; omega
  · rw [Int.compare_eq_eq.2 h]; simp only [Ordering.isLE_eq, true_iff]; omega
  · rw [Int.compare_eq_gt.2 h]; simp only [Ordering.isLE_gt, Bool.false_eq_true, false_iff]; omega

/-- Between doubles other than not-a-number, `≤` fails exactly when `<` holds the
other way: the order is total there. -/
theorem not_le_iff_lt {x y : Float} (hx : x.isNaN = false) (hy : y.isNaN = false) :
    ¬ x ≤ y ↔ y < x := by
  rw [le_iff_rank_le hx hy, lt_iff_rank_lt hy hx, Int.not_le]

/-- Doubles other than not-a-number are equal under `==` exactly when their ranks are. -/
theorem beq_iff_rank_eq {x y : Float} (hx : x.isNaN = false) (hy : y.isNaN = false) :
    (x == y) = true ↔ rank x = rank y := by
  show (x.toModel.unpack.compare y.toModel.unpack == some .eq) = true ↔ _
  rw [compare_eq_rankOf (canonical_toModel hx) (canonical_toModel hy)]
  show (some (compare (rank x) (rank y)) == some .eq) = true ↔ _
  rcases Int.lt_trichotomy (rank x) (rank y) with h | h | h
  · rw [Int.compare_eq_lt.2 h]
    exact ⟨fun h' => absurd h' (by decide), fun h' => absurd h' (by omega)⟩
  · rw [Int.compare_eq_eq.2 h]
    exact ⟨fun _ => h, fun _ => rfl⟩
  · rw [Int.compare_eq_gt.2 h]
    exact ⟨fun h' => absurd h' (by decide), fun h' => absurd h' (by omega)⟩

theorem unpack_of_isNaN {x : Float} (hx : x.isNaN = true) : x.toModel.unpack = .notANumber := by
  revert hx
  show x.toModel.unpack.isNaN = true → _
  cases x.toModel.unpack <;> simp [UnpackedFloat.isNaN]

/-- Not-a-number is `==` to nothing. -/
theorem beq_of_isNaN {x : Float} (hx : x.isNaN = true) (y : Float) : (x == y) = false := by
  show (x.toModel.unpack.compare y.toModel.unpack == some .eq) = false
  rw [unpack_of_isNaN hx]
  rfl

/-- Nothing is `==` to not-a-number. -/
theorem beq_of_isNaN_right (x : Float) {y : Float} (hy : y.isNaN = true) : (x == y) = false := by
  show (x.toModel.unpack.compare y.toModel.unpack == some .eq) = false
  rw [unpack_of_isNaN hy]
  cases x.toModel.unpack <;> rfl

/-- `==` on doubles is symmetric. -/
theorem beq_comm (x y : Float) : (x == y) = (y == x) := by
  cases hx : x.isNaN
  · cases hy : y.isNaN
    · exact Bool.eq_iff_iff.2 (by rw [beq_iff_rank_eq hx hy, beq_iff_rank_eq hy hx, eq_comm])
    · rw [beq_of_isNaN_right x hy, beq_of_isNaN hy x]
  · rw [beq_of_isNaN hx y, beq_of_isNaN_right y hx]

/-- `==` on doubles is transitive. -/
theorem beq_trans {x y z : Float} (h₁ : (x == y) = true) (h₂ : (y == z) = true) : (x == z) = true := by
  -- not-a-number is `==` to nothing, so none of the three is one
  have hx : x.isNaN = false := by
    cases hx : x.isNaN
    · rfl
    · rw [beq_of_isNaN hx] at h₁; cases h₁
  have hy : y.isNaN = false := by
    cases hy : y.isNaN
    · rfl
    · rw [beq_of_isNaN hy] at h₂; cases h₂
  have hz : z.isNaN = false := by
    cases hz : z.isNaN
    · rfl
    · rw [beq_of_isNaN_right y hz] at h₂; cases h₂
  rw [beq_iff_rank_eq hx hy] at h₁
  rw [beq_iff_rank_eq hy hz] at h₂
  rw [beq_iff_rank_eq hx hz, h₁, h₂]

theorem rank_one : rank 1 = ((2 ^ 1074 : Nat) : Int) := by
  rw [rank, show (1 : Float).toModel.unpack = .finite .positive (2 ^ 52) (-52) (by decide) from rfl]
  simp only [rankOf, Sign.apply]
  rw [← Nat.pow_add]
  rfl

/-- A finite double of at least one has a whole part of at least one. -/
theorem one_le_wholePart {x : Float} (hx : isFinite x = true) (h : (1 : Float) ≤ x) :
    1 ≤ wholePart x := by
  have hr := (le_iff_rank_le (by decide) (isNaN_eq_false hx)).1 h
  rw [rank_one, rank_eq hx] at hr
  have he := exp_ofFloat x
  unfold wholePart floorScaled
  generalize Binary.ofFloat x = b at hr he ⊢
  obtain ⟨neg, m, e⟩ := b
  dsimp only at hr he ⊢
  cases neg with
  | true =>
    simp only [signOf, Sign.apply, if_true] at hr
    omega
  | false =>
    simp only [signOf, Sign.apply, Bool.false_eq_true, if_false] at hr ⊢
    have hmag : 2 ^ 1074 ≤ m * 2 ^ (e + 1074).toNat := by exact_mod_cast hr
    have hm : 0 < m := Nat.pos_of_ne_zero fun h0 => by simp [h0] at hmag
    simp only [Nat.pow_eq, Int.neg_zero, Int.toNat_zero, Nat.pow_zero, Nat.mul_one]
    rcases le_or_gt 0 e with hpos | hneg
    · -- a whole exponent: the value is the mantissa times a power of two
      rw [show (-e).toNat = 0 by omega, Nat.pow_zero, Nat.div_one]
      have := Nat.mul_le_mul hm (Nat.one_le_two_pow (n := e.toNat))
      omega
    · -- a fractional exponent: the mantissa holds at least `2^(-e)`
      have hsplit : 2 ^ 1074 = 2 ^ (-e).toNat * 2 ^ (e + 1074).toNat := by
        rw [← Nat.pow_add]; congr 1; omega
      rw [show e.toNat = 0 by omega, Nat.pow_zero, Nat.mul_one]
      have hle : 2 ^ (-e).toNat ≤ m := by
        rw [hsplit] at hmag
        exact Nat.le_of_mul_le_mul_right hmag (Nat.two_pow_pos _)
      have h1 : 1 ≤ m / 2 ^ (-e).toNat :=
        (Nat.le_div_iff_mul_le (Nat.two_pow_pos _)).2 (by rw [Nat.one_mul]; exact hle)
      omega

/-- The integer forms of the finite nonzero doubles: a mantissa below `2^53`, an
exponent in range, and a mantissa below `2^52` (a subnormal) only at the least
exponent. -/
def Binary.Valid (b : Binary) : Prop :=
  0 < b.mant ∧ b.mant < 2 ^ 53 ∧ -1074 ≤ b.exp ∧ b.exp ≤ 971 ∧ (2 ^ 52 ≤ b.mant ∨ b.exp = -1074)

/-- A finite double with a nonzero mantissa has a valid integer form. -/
theorem valid_ofFloat {x : Float} (hx : isFinite x = true) (hm : (Binary.ofFloat x).mant ≠ 0) :
    (Binary.ofFloat x).Valid := by
  unfold isFinite fields at hx
  unfold Binary.Valid
  unfold Binary.ofFloat fields at hm ⊢
  simp only [Nat.pow_eq, fracBits, expBias, bne_iff_ne, ne_eq] at hx hm ⊢
  generalize x.toBits.toNat = B at hx hm ⊢
  by_cases hz : B / 2 ^ 52 % 2048 = 0
  · simp only [hz, if_true] at hm ⊢
    exact ⟨by omega, by omega, le_refl _, by omega, Or.inr trivial⟩
  · simp only [hz, if_false] at hm ⊢
    exact ⟨by omega, by omega, by omega, by omega, Or.inl (by omega)⟩

/-- Rebuilding a double from its integer form gives the double back. -/
theorem toFloat_ofFloat (x : Float) : (Binary.ofFloat x).toFloat = x := by
  have hlt := x.toBits.toNat_lt
  conv => rhs; rw [← Float.ofBits_toBits x]
  unfold Binary.toFloat Binary.ofFloat fields
  simp only [Nat.pow_eq, fracBits, expBias]
  congr 1
  apply UInt64.toNat_inj.1
  rw [Nat.toUInt64, UInt64.toNat_ofNat']
  generalize x.toBits.toNat = B at hlt ⊢
  have hsign : (if (B / 2 ^ 63 == 1) = true then 2 ^ 63 else 0) = B / 2 ^ 63 * 2 ^ 63 := by
    by_cases hs : B / 2 ^ 63 = 1
    · rw [if_pos (beq_iff_eq.2 hs), hs, Nat.one_mul]
    · rw [if_neg (by simpa using hs)]
      omega
  by_cases hz : B / 2 ^ 52 % 2048 = 0
  · simp only [hz, if_true]
    rw [if_pos (by omega), hsign]
    omega
  · simp only [hz, if_false]
    rw [if_neg (by omega), hsign]
    omega

end LaneGate.Decimal
