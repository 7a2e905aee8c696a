import LaneGate.Proofs.Decimal.Order
import LaneGate.Decimal.Read
/-!
# Signs of computed doubles

The model computes a double by unpacking its operands, operating and rounding on the
unpacked form, and packing the result. Which sign the result has, and that it is a number
at all, follows from each step on its own: rounding keeps the sign it is given, packing
turns a value too large for a double into the infinity of its sign, and the sign of a
product or quotient is read off the operands' signs.

`Signed s u` says that `u` is a number whose sign, unless it is a zero, is `s`. Every
operation below keeps it (`Signed.unpack_pack`, `Signed.mul`, `Signed.div`,
`Signed.add`, `Signed.zero_sub`), so a chain of operations on numbers of known sign is
settled without knowing the numbers: a count of tokens as a double is of positive sign
(`signed_toFloat`), and a product with a number of positive sign keeps the other
factor's sign. `not_mul_zero_sub_mul_lt_zero` compares two such products.
-/

namespace LaneGate.Decimal

open Float.Model Float.Model.UnpackedFloat Float.Model.Format

/-- A number whose sign, unless it is a zero, is `s`: a zero of either sign, a finite value
of sign `s` or the infinity of sign `s`. Not-a-number is not one. -/
inductive Signed (s : Sign) : UnpackedFloat → Prop
  | zero (t : Sign) : Signed s (.zero t)
  | finite (m : Nat) (e : Int) (h : 0 < m) : Signed s (.finite s m e h)
  | infinity : Signed s (.infinity s)

namespace Signed

variable {s : Sign} {u : UnpackedFloat}

theorem isNaN (h : Signed s u) : u.isNaN = false := by
  cases h <;> rfl

theorem negative_eq_false (h : Signed .positive u) : negative u = false := by
  cases h <;> rfl

/-- Bits whose sign bit is `s` and whose exponent field is not all ones unpack to a number
of sign `s`. -/
theorem of_bits {b : BitVec binary64.numBits} (hs : unpackSign b = s.toBitVec)
    (he : unpackExponent b ≠ -1#_) : Signed s (UnpackedFloat.unpack binary64 b) := by
  unfold UnpackedFloat.unpack
  dsimp only
  rw [if_neg he, hs, ofBitVec_toBitVec]
  split
  · split
    · exact .zero _
    · exact .finite _ _ _
  · exact .finite _ _ _

/-- Packing a number keeps its sign: a finite value too large for a double packs as the
infinity of its sign. -/
theorem unpack_pack (h : Signed s u) : Signed s (UnpackedFloat.unpack binary64 (UnpackedFloat.pack binary64 u)) := by
  cases h with
  | zero t => cases t <;> exact .zero _
  | infinity => cases s <;> exact .infinity
  | finite m e hm =>
    unfold UnpackedFloat.pack
    dsimp only
    split
    · cases s <;> exact .infinity
    · rename_i hbig
      rw [exponentBias_binary64] at hbig ⊢
      split
      · -- a normal value: the biased exponent is not all ones
        refine of_bits unpackSign_packComponents ?_
        rw [unpackExponent_packComponents]
        intro heq
        have := congrArg BitVec.toNat heq
        simp only [BitVec.toNat_ofNat, BitVec.neg_one_eq_allOnes, BitVec.toNat_allOnes] at this
        omega
      · -- a subnormal value: the exponent field is zero
        refine of_bits unpackSign_packComponents ?_
        rw [unpackExponent_packComponents]
        decide

theorem roundWithAccuracy (s : Sign) (m : Nat) (e : Int) (acc : Accuracy) :
    Signed s (roundWithAccuracy binary64 s m e acc) := by
  unfold UnpackedFloat.roundWithAccuracy
  dsimp only
  split
  · exact .zero _
  · exact .finite _ _ _

theorem round (s : Sign) (m : Nat) (e : Int) : Signed s (UnpackedFloat.round binary64 s m e) :=
  roundWithAccuracy _ _ _ _

/-- Rounding an integer mantissa that is not below zero gives a number of positive sign. -/
theorem normalize {M : Int} (hM : 0 ≤ M) (E : Int) :
    Signed .positive (normalize binary64 M E .positive) := by
  unfold UnpackedFloat.normalize
  split
  · next hlt => exact absurd (Int.compare_eq_lt.1 hlt) (Int.not_lt.2 hM)
  · exact .zero _
  · exact round _ _ _

theorem ofNat (n : Nat) : Signed .positive (UnpackedFloat.ofNat binary64 n) :=
  normalize (Int.natCast_nonneg n) 0

/-- A number times a finite value has the product of their signs. -/
theorem mul {t : Sign} {m : Nat} {e : Int} {hm : 0 < m} (h : Signed s u) :
    Signed (s * t) (mul binary64 u (.finite t m e hm)) := by
  cases h with
  | zero r => exact .zero _
  | finite m' e' hm' => exact roundWithAccuracy _ _ _ _
  | infinity => exact .infinity

/-- A number over a finite value has the quotient of their signs. -/
theorem div {t : Sign} {m : Nat} {e : Int} {hm : 0 < m} (h : Signed s u) :
    Signed (s / t) (div binary64 u (.finite t m e hm)) := by
  cases h with
  | zero r => exact .zero _
  | finite m' e' hm' => exact roundWithAccuracy _ _ _ _
  | infinity => exact .infinity

/-- A number of positive sign plus a positive finite value is of positive sign. -/
theorem add {m : Nat} {e : Int} {hm : 0 < m} (h : Signed .positive u) :
    Signed .positive (add binary64 u (.finite .positive m e hm)) := by
  cases h with
  | zero r => exact .finite _ _ _
  | finite m' e' hm' => exact normalize (Int.add_nonneg (Int.natCast_nonneg _) (Int.natCast_nonneg _)) _
  | infinity => exact .infinity

/-- A number of positive sign times zero is a zero, or not-a-number when it is infinite. -/
theorem mul_zero (h : Signed .positive u) :
    UnpackedFloat.mul binary64 u (.zero .positive) = .notANumber ∨
      ∃ t, UnpackedFloat.mul binary64 u (.zero .positive) = .zero t := by
  cases h with
  | zero t => exact .inr ⟨t * .positive, rfl⟩
  | finite m e hm => exact .inr ⟨.positive, rfl⟩
  | infinity => exact .inl rfl

/-- A zero minus a number of negative sign is of positive sign. -/
theorem zero_sub {t : Sign} (h : Signed .negative u) : Signed .positive (sub binary64 (.zero t) u) := by
  cases h with
  | zero r => cases t <;> cases r <;> exact .zero _
  | finite m e hm => exact .finite _ _ _
  | infinity => exact .infinity

end Signed

/-! ### Doubles -/

theorem unpack_pack_notANumber :
    UnpackedFloat.unpack binary64 (UnpackedFloat.pack binary64 .notANumber) = .notANumber := rfl

theorem unpack_pack_zero (t : Sign) :
    UnpackedFloat.unpack binary64 (UnpackedFloat.pack binary64 (.zero t)) = .zero t := by
  cases t <;> rfl

/-- The unpacked value of a double as its operations compute it: unpack both, operate,
round, pack and unpack again. -/
theorem unpack_mul (x y : Float) : (x * y).toModel.unpack =
    UnpackedFloat.unpack binary64 (UnpackedFloat.pack binary64 (mul binary64 x.toModel.unpack y.toModel.unpack)) := rfl

theorem unpack_div (x y : Float) : (x / y).toModel.unpack =
    UnpackedFloat.unpack binary64 (UnpackedFloat.pack binary64 (div binary64 x.toModel.unpack y.toModel.unpack)) := rfl

theorem unpack_add (x y : Float) : (x + y).toModel.unpack =
    UnpackedFloat.unpack binary64 (UnpackedFloat.pack binary64 (add binary64 x.toModel.unpack y.toModel.unpack)) := rfl

theorem unpack_sub (x y : Float) : (x - y).toModel.unpack =
    UnpackedFloat.unpack binary64 (UnpackedFloat.pack binary64 (sub binary64 x.toModel.unpack y.toModel.unpack)) := rfl

/-- A double of positive sign times a finite double is a number of the product's sign. -/
theorem signed_mul {x y : Float} {s t : Sign} (hx : Signed s x.toModel.unpack)
    (hy : ∃ m e h, y.toModel.unpack = .finite t m e h) : Signed (s * t) (x * y).toModel.unpack := by
  obtain ⟨m, e, h, hy⟩ := hy
  rw [unpack_mul, hy]
  exact hx.mul.unpack_pack

theorem signed_div {x y : Float} {s t : Sign} (hx : Signed s x.toModel.unpack)
    (hy : ∃ m e h, y.toModel.unpack = .finite t m e h) : Signed (s / t) (x / y).toModel.unpack := by
  obtain ⟨m, e, h, hy⟩ := hy
  rw [unpack_div, hy]
  exact hx.div.unpack_pack

theorem signed_add {x y : Float} (hx : Signed .positive x.toModel.unpack)
    (hy : ∃ m e h, y.toModel.unpack = .finite .positive m e h) :
    Signed .positive (x + y).toModel.unpack := by
  obtain ⟨m, e, h, hy⟩ := hy
  rw [unpack_add, hy]
  exact hx.add.unpack_pack

/-- A natural number as a double is a number of positive sign: below `2^53` the product of
its exact value and one, above that the model's reading of its digits. -/
theorem signed_toFloat (n : Nat) : Signed .positive n.toFloat.toModel.unpack := by
  show Signed _ (Float.ofScientific n false 0).toModel.unpack
  unfold Float.ofScientific
  split
  · have hn : Signed .positive n.toUInt64.toFloat.toModel.unpack :=
      (Signed.ofNat n.toUInt64.toNat).unpack_pack
    simp only [Bool.false_eq_true, if_false]
    rw [show Float.exactlyRepresentablePowersOfTen[0] = 1 from rfl]
    exact signed_mul (t := .positive) hn ⟨_, _, _, rfl⟩
  · simp only [Bool.false_eq_true, if_false]
    refine Signed.unpack_pack ?_
    unfold UnpackedFloat.ofScientific
    split
    · exact .zero _
    · split
      · exact .infinity
      · split
        · exact .zero _
        · split
          · exact Signed.mul (s := .positive) (t := .positive) (.finite _ _ _)
          · exact Signed.div (s := .positive) (t := .positive) (.finite _ _ _)

/-- A double of positive sign times zero is not above the same double times a value below
zero: the first is a zero (or not-a-number, for infinity) and the second a number of
negative sign, so their difference is not below zero. -/
theorem not_mul_zero_sub_mul_lt_zero {x c : Float} (hx : Signed .positive x.toModel.unpack)
    (hc : ∃ m e h, c.toModel.unpack = .finite .negative m e h) : ¬ x * 0 - x * c < 0 := by
  have hb : Signed .negative (x * c).toModel.unpack := signed_mul (s := .positive) hx hc
  have hzero : (0 : Float).toModel.unpack = .zero .positive := rfl
  rw [lt_iff_unpack, unpack_sub, unpack_mul x 0, hzero, lt_zero_eq_negative]
  rcases hx.mul_zero with ha | ⟨t, ha⟩
  · -- infinity times zero: not-a-number throughout
    rw [ha, unpack_pack_notANumber,
      show UnpackedFloat.sub binary64 .notANumber (x * c).toModel.unpack = .notANumber from rfl,
      unpack_pack_notANumber]
    exact Bool.false_ne_true
  · rw [ha, unpack_pack_zero, (Signed.zero_sub hb).unpack_pack.negative_eq_false]
    exact Bool.false_ne_true

end LaneGate.Decimal
