import LaneGate.Proofs.Decimal.Fields
import LaneGate.Proofs.Decimal.Signs
import LaneGate.Decimal.Remainder
/-!
# Whole numbers as doubles

Counts, lengths, budgets and cursors are whole numbers, and as doubles they are exact
while they stay below `2^53` in size. Such a number's double has one form
(`Binary.whole`): zero, or the number's bits moved up until the top one is bit 52.
A double holds a whole number (`Whole x z`) when it unpacks to that form, and the
double operations the service runs on such numbers compute what the integers do:

* `Whole.toFloat`: a natural number below `2^53` made a double;
* `Whole.add`, `Whole.sub`: sums and differences that stay below `2^53` in size;
* `Whole.remainder`: the remainder of a division of natural numbers;
* `Whole.lt_iff`, `Whole.le_iff`, `Whole.beq_iff`: comparisons are the integers';
* `Whole.toUInt64`: truncation gives a natural number back, and `toUInt64_le`: no
  double of positive sign truncates past a whole number above it.

Everything rests on one fact about rounding (`round_whole`): a whole number below
`2^53` written as the mantissa `n · 2^j` at the exponent `-j` rounds to its own form
without losing a bit, whatever `j` is.
-/

namespace LaneGate.Decimal

open Float.Model UnpackedFloat

/-! ### Full-width mantissas -/

theorem shiftLeft_pos {n : Nat} (hn : 0 < n) (k : Nat) : 0 < n <<< k := by
  rw [Nat.shiftLeft_eq]
  exact Nat.mul_pos hn (Nat.two_pow_pos k)

/-- A positive number below `2^53`, shifted until its top bit is bit 52, is a mantissa
of full width. -/
theorem shiftLeft_log2_bounds {n : Nat} (hn : 0 < n) (hn' : n < 2 ^ 53) :
    2 ^ 52 ≤ n <<< (52 - n.log2) ∧ n <<< (52 - n.log2) < 2 ^ 53 := by
  have hL : n.log2 < 53 := log2_lt_of_lt hn hn'
  have hlog := log2_shiftLeft hn (52 - n.log2)
  refine ⟨?_, lt_two_pow_of_log2 (by omega)⟩
  have hle := Nat.log2_self_le (Nat.pos_iff_ne_zero.1 (shiftLeft_pos hn (52 - n.log2)))
  rwa [hlog, show n.log2 + (52 - n.log2) = 52 by omega] at hle

/-- Shifting zero bits out of a mantissa is exact: no round or sticky bit is set. -/
theorem shiftRight_exact (m k : Nat) :
    (⟨m * 2 ^ k, false, false⟩ : ExtendedMantissa) >>> k = (⟨m, false, false⟩ : ExtendedMantissa) := by
  induction k generalizing m with
  | zero =>
    show (⟨m * 2 ^ 0, false, false⟩ : ExtendedMantissa) = _
    rw [Nat.pow_zero, Nat.mul_one]
  | succ k ih =>
    change ExtendedMantissa.shiftRightOne ((⟨m * 2 ^ (k + 1), false, false⟩ : ExtendedMantissa) >>> k) = _
    rw [Nat.pow_succ, Nat.mul_comm (2 ^ k) 2, ← Nat.mul_assoc, ih]
    simp [ExtendedMantissa.shiftRightOne]

/-- A full-width mantissa with `k` zero bits below it sits at its target exponent once
they are dropped. -/
theorem shiftToTarget_full {m : Nat} (lo : 2 ^ 52 ≤ m) (hi : m < 2 ^ 53) {e : Int}
    (he : -1074 ≤ e) (k : Nat) :
    shiftToTargetExponent binary64 (m * 2 ^ k) (e - k) .exact = (⟨m, false, false⟩, e) := by
  have hL : m.log2 = 52 := (Nat.log2_eq_iff (by omega)).2 ⟨lo, hi⟩
  have hmk : (m * 2 ^ k).log2 = 52 + k := by
    rw [← Nat.shiftLeft_eq, log2_shiftLeft (by omega), hL]
  have ht : binary64.targetExponent (totalExponent (m * 2 ^ k) (e - k)) = e := by
    rw [targetExponent_eq]
    simp only [totalExponent, hmk]
    omega
  simp only [shiftToTargetExponent, shiftToExponent, ht, ExtendedMantissa.ofMantissaAndAccuracy]
  rw [show (e - (e - k)).toNat = k by omega, shiftRight_exact]
  congr 1
  omega

/-- Rounding a full-width mantissa with `k` zero bits below it drops those bits and
nothing else. -/
theorem roundWithAccuracy_full (s : Sign) {m : Nat} (lo : 2 ^ 52 ≤ m) (hi : m < 2 ^ 53) {e : Int}
    (he : -1074 ≤ e) (k : Nat) :
    roundWithAccuracy binary64 s (m * 2 ^ k) (e - k) .exact = .finite s m e (by omega) := by
  have hfirst := shiftToTarget_full lo hi he k
  have hsecond := shiftToTarget_full lo hi he 0
  rw [Nat.pow_zero, Nat.mul_one, Nat.cast_zero, Int.sub_zero] at hsecond
  rw [roundWithAccuracy, hfirst]
  dsimp only
  rw [show ExtendedMantissa.roundedMantissa ⟨m, false, false⟩ = m from rfl, hsecond]
  dsimp only
  rw [dif_neg (by omega)]

/-- A positive whole number below `2^53`, written as the mantissa `n · 2^j` at the
exponent `-j`, rounds to the number's own form. -/
theorem round_whole (s : Sign) {n : Nat} (hn : 0 < n) (hn' : n < 2 ^ 53) (j : Nat) :
    UnpackedFloat.round binary64 s (n * 2 ^ j) (-j) =
      .finite s (n <<< (52 - n.log2)) (n.log2 - 52) (shiftLeft_pos hn _) := by
  obtain ⟨lo, hi⟩ := shiftLeft_log2_bounds hn hn'
  have hL : n.log2 < 53 := log2_lt_of_lt hn hn'
  have hnj : (n * 2 ^ j).log2 = n.log2 + j := by
    rw [← Nat.shiftLeft_eq, log2_shiftLeft hn]
  have ht : binary64.targetExponent (totalExponent (n * 2 ^ j) (-j)) = n.log2 - 52 := by
    rw [targetExponent_eq]
    simp only [totalExponent, hnj]
    omega
  unfold UnpackedFloat.round decreaseExponent
  rw [ht]
  dsimp only
  generalize ha : (-(j : Int) - (n.log2 - 52)).toNat = a
  have hk : (n * 2 ^ j) <<< a = (n <<< (52 - n.log2)) * 2 ^ (j + a - (52 - n.log2)) := by
    rw [Nat.shiftLeft_eq, Nat.shiftLeft_eq, Nat.mul_assoc, Nat.mul_assoc, ← Nat.pow_add,
      ← Nat.pow_add]
    congr 2
    omega
  rw [hk, show -(j : Int) - a = (n.log2 - 52 : Int) - ((j + a - (52 - n.log2) : Nat) : Int) by omega]
  exact roundWithAccuracy_full s lo hi (by omega) _

/-! ### The form of a whole number -/

/-- The integer form of a whole number below `2^53` in size: zero at the least
exponent, any other number with its magnitude shifted until the top bit is bit 52. -/
def Binary.whole (z : Int) : Binary :=
  if z = 0 then ⟨false, 0, -1074⟩
  else ⟨decide (z < 0), z.natAbs <<< (52 - z.natAbs.log2), (z.natAbs.log2 : Int) - 52⟩

/-- The unpacked value of a whole number's double. -/
def wholeForm (z : Int) : UnpackedFloat := (Binary.whole z).toUnpacked

theorem wholeForm_zero : wholeForm 0 = .zero .positive := rfl

theorem wholeForm_of_ne {z : Int} (hz : z ≠ 0) :
    wholeForm z = .finite (signOf (decide (z < 0))) (z.natAbs <<< (52 - z.natAbs.log2))
      (z.natAbs.log2 - 52) (shiftLeft_pos (Int.natAbs_pos.2 hz) _) := by
  rw [wholeForm, Binary.whole, if_neg hz, Binary.toUnpacked,
    dif_pos (shiftLeft_pos (Int.natAbs_pos.2 hz) _)]

/-- The signed mantissa of a nonzero whole number's form, moved down to an exponent
`-j` no higher than its own, is the number times `2^j`. -/
theorem apply_whole_shift {z : Int} (hz : z ≠ 0) (hz' : z.natAbs < 2 ^ 53) {j : Nat}
    (hj : 52 - z.natAbs.log2 ≤ j) :
    (signOf (decide (z < 0))).apply
        ((z.natAbs <<< (52 - z.natAbs.log2) <<< ((z.natAbs.log2 - 52 : Int) - -(j : Int)).toNat :
          Nat) : Int) = z * 2 ^ j := by
  have hL : z.natAbs.log2 < 53 := log2_lt_of_lt (Int.natAbs_pos.2 hz) hz'
  have hm : z.natAbs <<< (52 - z.natAbs.log2) <<< ((z.natAbs.log2 - 52 : Int) - -(j : Int)).toNat =
      z.natAbs * 2 ^ j := by
    rw [Nat.shiftLeft_eq, Nat.shiftLeft_eq, Nat.mul_assoc, ← Nat.pow_add]
    congr 2
    omega
  rw [hm]
  rcases Int.lt_or_gt_of_ne hz with hneg | hpos
  · rw [decide_eq_true hneg]
    show -((z.natAbs * 2 ^ j : Nat) : Int) = _
    push_cast
    rw [abs_of_neg hneg]
    ring
  · rw [decide_eq_false (by omega)]
    show ((z.natAbs * 2 ^ j : Nat) : Int) = _
    push_cast
    rw [abs_of_pos hpos]

/-- A whole number below `2^53` in size, as the signed mantissa `z · 2^j` at the
exponent `-j`, normalizes to its form. -/
theorem normalize_whole {z : Int} (hz : z.natAbs < 2 ^ 53) (j : Nat) :
    UnpackedFloat.normalize binary64 (z * 2 ^ j) (-j) .positive = wholeForm z := by
  unfold UnpackedFloat.normalize
  rcases Int.lt_trichotomy z 0 with hneg | rfl | hpos
  · have hc : compare (z * 2 ^ j) 0 = .lt := Int.compare_eq_lt.2 (by
      have : (0 : Int) < 2 ^ j := by positivity
      nlinarith)
    have hm : (-(z * 2 ^ j)).toNat = z.natAbs * 2 ^ j := by
      rw [← Int.neg_mul, ← Int.ofNat_natAbs_of_nonpos hneg.le]
      exact_mod_cast Int.toNat_natCast _
    rw [hc]
    dsimp only
    rw [hm, round_whole _ (Int.natAbs_pos.2 hneg.ne) hz, wholeForm_of_ne hneg.ne,
      decide_eq_true hneg]
    rfl
  · rw [Int.zero_mul]
    rfl
  · have hc : compare (z * 2 ^ j) 0 = .gt := Int.compare_eq_gt.2 (by positivity)
    have hm : (z * 2 ^ j).toNat = z.natAbs * 2 ^ j := by
      rw [← Int.natAbs_of_nonneg hpos.le]
      exact_mod_cast Int.toNat_natCast _
    rw [hc]
    dsimp only
    rw [hm, round_whole _ (Int.natAbs_pos.2 hpos.ne') hz, wholeForm_of_ne hpos.ne',
      decide_eq_false (by omega)]
    rfl

/-! ### Packing -/

/-- A finite value of full width and an exponent in range packs to bits that unpack to
it. -/
theorem unpack_pack_full (s : Sign) {m : Nat} (lo : 2 ^ 52 ≤ m) (hi : m < 2 ^ 53) {e : Int}
    (he : -1074 ≤ e) (he' : e ≤ 971) :
    UnpackedFloat.unpack binary64 (UnpackedFloat.pack binary64 (.finite s m e (by omega))) =
      .finite s m e (by omega) := by
  have hL : m.log2 = 52 := (Nat.log2_eq_iff (by omega)).2 ⟨lo, hi⟩
  have hn : ¬ 2 ^ binary64.exponentBits ≤
      (e + binary64.exponentBias + binary64.mantissaBitsWithoutImplicit).toNat + 1 := by
    change ¬ 2048 ≤ (e + 1023 + 52).toNat + 1
    omega
  simp only [UnpackedFloat.pack, if_neg hn, hL]
  rw [if_pos (show 52 + 1 = binary64.mantissaBits from rfl)]
  simp only [UnpackedFloat.unpack, unpackMantissa_packComponents, unpackExponent_packComponents,
    unpackSign_packComponents, ofBitVec_toBitVec]
  have hbe : (BitVec.ofNat 11 (e + (binary64.exponentBias : Int) + (52 : Nat)).toNat).toNat =
      (e + 1075).toNat := by
    change (e + 1023 + 52).toNat % 2048 = (e + 1075).toNat
    omega
  have hne1 : BitVec.ofNat 11 (e + (binary64.exponentBias : Int) + (52 : Nat)).toNat ≠ -1#11 := by
    intro h
    have := congrArg BitVec.toNat h
    rw [hbe] at this
    change (e + 1075).toNat = 2047 at this
    omega
  have hne0 : BitVec.ofNat 11 (e + (binary64.exponentBias : Int) + (52 : Nat)).toNat ≠ 0#11 := by
    intro h
    have := congrArg BitVec.toNat h
    rw [hbe] at this
    change (e + 1075).toNat = 0 at this
    omega
  have hm : (1#1 ++ BitVec.ofNat 52 m).toNat = m := by
    simp only [BitVec.toNat_append, BitVec.toNat_ofNat, Nat.shiftLeft_eq]
    change 2 ^ 52 ||| (m % 2 ^ 52) = m
    rw [Nat.or_comm, Nat.or_two_pow_eq_add_of_lt (Nat.mod_lt m (Nat.two_pow_pos 52))]
    omega
  rw [if_neg hne1, if_neg hne0]
  simp only [hm, hbe]
  simp only [exponentBias_binary64]
  congr 1
  omega

theorem unpack_pack_wholeForm {z : Int} (hz : z.natAbs < 2 ^ 53) :
    UnpackedFloat.unpack binary64 (UnpackedFloat.pack binary64 (wholeForm z)) = wholeForm z := by
  by_cases h0 : z = 0
  · subst h0
    exact unpack_pack_zero _
  · have hL : z.natAbs.log2 < 53 := log2_lt_of_lt (Int.natAbs_pos.2 h0) hz
    obtain ⟨lo, hi⟩ := shiftLeft_log2_bounds (Int.natAbs_pos.2 h0) hz
    rw [wholeForm_of_ne h0]
    exact unpack_pack_full _ lo hi (by omega) (by omega)

/-! ### Operations on forms -/

theorem add_wholeForm {a b : Int} (ha : a.natAbs < 2 ^ 53) (hb : b.natAbs < 2 ^ 53)
    (hab : (a + b).natAbs < 2 ^ 53) :
    UnpackedFloat.add binary64 (wholeForm a) (wholeForm b) = wholeForm (a + b) := by
  by_cases ha0 : a = 0
  · subst ha0
    rw [Int.zero_add]
    by_cases hb0 : b = 0
    · subst hb0
      rfl
    · rw [wholeForm_zero, wholeForm_of_ne hb0]
      rfl
  by_cases hb0 : b = 0
  · subst hb0
    rw [Int.add_zero, wholeForm_zero, wholeForm_of_ne ha0]
    rfl
  obtain ⟨j, hj⟩ : ∃ j : Nat, min ((a.natAbs.log2 : Int) - 52) ((b.natAbs.log2 : Int) - 52) = -j :=
    ⟨(-(min ((a.natAbs.log2 : Int) - 52) ((b.natAbs.log2 : Int) - 52))).toNat, by
      have := log2_lt_of_lt (Int.natAbs_pos.2 ha0) ha
      omega⟩
  rw [wholeForm_of_ne ha0, wholeForm_of_ne hb0]
  simp only [UnpackedFloat.add, decreaseExponent]
  rw [hj, apply_whole_shift ha0 ha (by omega), apply_whole_shift hb0 hb (by omega), ← Int.add_mul]
  exact normalize_whole hab j

/-- Negating a nonzero whole number's form gives the form of its negation. -/
theorem neg_wholeForm {z : Int} (hz : z ≠ 0) : (wholeForm z).neg = wholeForm (-z) := by
  rw [wholeForm_of_ne hz, wholeForm_of_ne (Int.neg_ne_zero.2 hz)]
  simp only [UnpackedFloat.neg, Int.natAbs_neg]
  rcases Int.lt_or_gt_of_ne hz with hneg | hpos
  · rw [decide_eq_true hneg, decide_eq_false (by omega)]
    rfl
  · rw [decide_eq_false (by omega), decide_eq_true (by omega)]
    rfl

theorem sub_wholeForm {a b : Int} (ha : a.natAbs < 2 ^ 53) (hb : b.natAbs < 2 ^ 53)
    (hab : (a - b).natAbs < 2 ^ 53) :
    UnpackedFloat.sub binary64 (wholeForm a) (wholeForm b) = wholeForm (a - b) := by
  by_cases hb0 : b = 0
  · subst hb0
    rw [Int.sub_zero]
    by_cases ha0 : a = 0
    · subst ha0
      rfl
    · rw [wholeForm_zero, wholeForm_of_ne ha0]
      rfl
  by_cases ha0 : a = 0
  · -- zero less a number: the number with the other sign
    subst ha0
    rw [Int.zero_sub, wholeForm_zero, wholeForm_of_ne hb0, wholeForm_of_ne (Int.neg_ne_zero.2 hb0)]
    simp only [UnpackedFloat.sub, Int.natAbs_neg]
    rcases Int.lt_or_gt_of_ne hb0 with hneg | hpos
    · rw [decide_eq_true hneg, decide_eq_false (by omega)]
      rfl
    · rw [decide_eq_false (by omega), decide_eq_true (by omega)]
      rfl
  obtain ⟨j, hj⟩ : ∃ j : Nat, min ((a.natAbs.log2 : Int) - 52) ((b.natAbs.log2 : Int) - 52) = -j :=
    ⟨(-(min ((a.natAbs.log2 : Int) - 52) ((b.natAbs.log2 : Int) - 52))).toNat, by
      have := log2_lt_of_lt (Int.natAbs_pos.2 ha0) ha
      omega⟩
  rw [wholeForm_of_ne ha0, wholeForm_of_ne hb0]
  simp only [UnpackedFloat.sub, decreaseExponent]
  rw [hj, apply_whole_shift ha0 ha (by omega), apply_whole_shift hb0 hb (by omega), ← Int.sub_mul]
  exact normalize_whole hab j

theorem isFinite_wholeForm (z : Int) : (wholeForm z).isFinite = true := by
  by_cases h0 : z = 0
  · subst h0
    rfl
  · rw [wholeForm_of_ne h0]
    rfl

theorem rankOf_wholeForm {z : Int} (hz : z.natAbs < 2 ^ 53) : rankOf (wholeForm z) = z * 2 ^ 1074 := by
  by_cases h0 : z = 0
  · subst h0
    rw [wholeForm_zero, Int.zero_mul]
    rfl
  · rw [wholeForm_of_ne h0, rankOf]
    have := apply_whole_shift h0 hz (j := 1074) (by omega)
    have hL : z.natAbs.log2 < 53 := log2_lt_of_lt (Int.natAbs_pos.2 h0) hz
    rw [← this, Nat.shiftLeft_eq (z.natAbs <<< _)]
    congr 3

/-! ### Integer forms -/

theorem signOf_inj {a b : Bool} (h : signOf a = signOf b) : a = b := by
  cases a <;> cases b <;> first | rfl | cases h

/-- A double whose exponent field is all ones unpacks to an infinity or to
not-a-number. -/
theorem unpack_of_isFinite_eq_false {x : Float} (hx : isFinite x = false) :
    x.toModel.unpack = .notANumber ∨ ∃ s, x.toModel.unpack = .infinity s := by
  have hE := toNat_unpackExponent x.toModel.toBits.toBitVec
  unfold isFinite at hx
  rw [fields_eq] at hx
  have hall : @unpackExponent binary64 x.toModel.toBits.toBitVec = -1#11 := by
    apply BitVec.eq_of_toNat_eq
    rw [hE]
    simp only [bne_eq_false_iff_eq] at hx
    simpa using hx
  unfold Float.Model.unpack UnpackedFloat.unpack
  dsimp only
  rw [if_pos hall]
  split
  · exact Or.inr ⟨_, rfl⟩
  · exact Or.inl rfl

/-- A finite double with no mantissa bits is a zero at the least exponent. -/
theorem exp_ofFloat_of_mant_eq_zero (x : Float) (h : (Binary.ofFloat x).mant = 0) :
    (Binary.ofFloat x).exp = -1074 := by
  unfold Binary.ofFloat at h ⊢
  dsimp only at h ⊢
  split
  · rfl
  · rename_i hbe
    rw [if_neg hbe] at h
    have : 0 < Nat.pow 2 fracBits := Nat.two_pow_pos 52
    dsimp only at h
    omega

theorem exp_whole_of_mant_eq_zero (z : Int) (h : (Binary.whole z).mant = 0) :
    (Binary.whole z).exp = -1074 := by
  unfold Binary.whole at h ⊢
  split
  · rfl
  · rename_i h0
    rw [if_neg h0] at h
    exact absurd h (Nat.pos_iff_ne_zero.1 (shiftLeft_pos (Int.natAbs_pos.2 h0) _))

/-- Integer forms are told apart by their unpacked values, once a form without
mantissa bits always has the least exponent. -/
theorem eq_of_toUnpacked_eq {b c : Binary} (h : b.toUnpacked = c.toUnpacked)
    (hb : b.mant = 0 → b.exp = -1074) (hc : c.mant = 0 → c.exp = -1074) : b = c := by
  obtain ⟨bn, bm, be⟩ := b
  obtain ⟨cn, cm, ce⟩ := c
  unfold Binary.toUnpacked at h
  dsimp only at h hb hc
  split at h <;> split at h
  · obtain ⟨hs, hm, he⟩ := UnpackedFloat.finite.inj h
    rw [signOf_inj hs, hm, he]
  · cases h
  · cases h
  · rename_i hb' hc'
    rw [signOf_inj (UnpackedFloat.zero.inj h), Nat.eq_zero_of_not_pos hb', Nat.eq_zero_of_not_pos hc',
      hb (Nat.eq_zero_of_not_pos hb'), hc (Nat.eq_zero_of_not_pos hc')]

/-- The integer form of a natural number. -/
theorem whole_natCast {n : Nat} (h : n ≠ 0) :
    Binary.whole n = ⟨false, n <<< (52 - n.log2), n.log2 - 52⟩ := by
  rw [Binary.whole, if_neg (by exact_mod_cast h), Int.natAbs_natCast,
    decide_eq_false (by omega)]

/-- A whole number `c`, as the mantissa `c · 2^j` at the exponent `-j`, rebuilt with
its top bit at bit 52: its own integer form, when `c · 2^j` is below `2^53`. -/
theorem normal_whole {c j : Nat} (hc : c.log2 + j ≤ 52) :
    (⟨false, normalMant (c * 2 ^ j) (-j), normalExp (c * 2 ^ j) (-j)⟩ : Binary) = Binary.whole c := by
  by_cases h0 : c = 0
  · subst h0
    rw [Nat.zero_mul]
    rfl
  · have hpos : 0 < c * 2 ^ j := Nat.mul_pos (Nat.pos_of_ne_zero h0) (Nat.two_pow_pos j)
    have hlog : (c * 2 ^ j).log2 = c.log2 + j := by
      rw [← Nat.shiftLeft_eq, log2_shiftLeft (Nat.pos_of_ne_zero h0)]
    have hshift : leftShift (c * 2 ^ j) (-j) = 52 - c.log2 - j := by
      unfold leftShift
      rw [hlog]
      simp only [fracBits]
      omega
    rw [whole_natCast h0, normalMant, normalExp, if_neg (by omega), if_neg (by omega), hshift]
    congr 1
    · rw [Nat.pow_eq, Nat.shiftLeft_eq, Nat.mul_assoc, ← Nat.pow_add]
      congr 2
      omega
    · omega

/-! ### Doubles holding whole numbers -/

/-- The double `x` holds the whole number `z`, below `2^53` in size, exactly: it
unpacks to `z`'s form. -/
structure Whole (x : Float) (z : Int) : Prop where
  small : z.natAbs < 2 ^ 53
  unpack : x.toModel.unpack = wholeForm z

namespace Whole

variable {x y : Float} {a b z : Int}

/-- A natural number below `2^53` made a double: the number itself times one. -/
theorem toFloat {n : Nat} (hn : n < 2 ^ 53) : Whole n.toFloat n := by
  have hsmall : (n : Int).natAbs < 2 ^ 53 := by rw [Int.natAbs_natCast]; exact hn
  have hnorm := normalize_whole hsmall 0
  rw [pow_zero, Int.mul_one, Nat.cast_zero, Int.neg_zero] at hnorm
  refine ⟨hsmall, ?_⟩
  show (Float.ofScientific n false 0).toModel.unpack = _
  unfold Float.ofScientific
  rw [dif_pos ⟨hn, by decide⟩]
  simp only [Bool.false_eq_true, if_false]
  rw [show Float.exactlyRepresentablePowersOfTen[0] = 1 from rfl, unpack_mul,
    show (1 : Float).toModel.unpack = .finite .positive (2 ^ 52) (-52) (by decide) from rfl]
  have hword : n.toUInt64.toFloat.toModel.unpack = wholeForm n := by
    show UnpackedFloat.unpack binary64 (UnpackedFloat.pack binary64
      (UnpackedFloat.normalize binary64 (n.toUInt64.toNat : Int) 0 .positive)) = _
    rw [Nat.toUInt64, UInt64.toNat_ofNat', Nat.mod_eq_of_lt (by omega), hnorm]
    exact unpack_pack_wholeForm hsmall
  rw [hword]
  by_cases h0 : n = 0
  · subst h0
    rfl
  · have hz : ((n : Int)) ≠ 0 := by exact_mod_cast h0
    have hL : n.log2 < 53 := log2_lt_of_lt (by omega) hn
    obtain ⟨lo, hi⟩ := shiftLeft_log2_bounds (Nat.pos_of_ne_zero h0) hn
    rw [wholeForm_of_ne hz]
    simp only [Int.natAbs_natCast] at lo hi ⊢
    show UnpackedFloat.unpack binary64 (UnpackedFloat.pack binary64 (roundWithAccuracy binary64
      (_ * .positive) (_ * 2 ^ 52) (_ + -52) .exact)) = _
    rw [show ((n.log2 : Int) - 52 + -52) = (n.log2 - 52 : Int) - ((52 : Nat) : Int) by omega,
      roundWithAccuracy_full _ lo hi (by omega), unpack_pack_full _ lo hi (by omega) (by omega),
      decide_eq_false (by omega)]
    rfl

theorem zero : Whole 0 0 := toFloat (n := 0) (by decide)

theorem one : Whole 1 1 := toFloat (n := 1) (by decide)

theorem isNaN (h : Whole x z) : x.isNaN = false := by
  show x.toModel.unpack.isNaN = false
  rw [h.unpack]
  by_cases h0 : z = 0
  · subst h0
    rfl
  · rw [wholeForm_of_ne h0]
    rfl

theorem rank (h : Whole x z) : Decimal.rank x = z * 2 ^ 1074 := by
  rw [Decimal.rank, h.unpack, rankOf_wholeForm h.small]

theorem lt_iff (hx : Whole x a) (hy : Whole y b) : x < y ↔ a < b := by
  rw [lt_iff_rank_lt hx.isNaN hy.isNaN, hx.rank, hy.rank]
  exact ⟨fun h => Int.lt_of_mul_lt_mul_right h (by positivity),
    fun h => Int.mul_lt_mul_of_pos_right h (by positivity)⟩

theorem le_iff (hx : Whole x a) (hy : Whole y b) : x ≤ y ↔ a ≤ b := by
  rw [le_iff_rank_le hx.isNaN hy.isNaN, hx.rank, hy.rank]
  exact ⟨fun h => Int.le_of_mul_le_mul_right h (by positivity),
    fun h => Int.mul_le_mul_of_nonneg_right h (by positivity)⟩

theorem beq_iff (hx : Whole x a) (hy : Whole y b) : (x == y) = true ↔ a = b := by
  rw [beq_iff_rank_eq hx.isNaN hy.isNaN, hx.rank, hy.rank]
  constructor
  · intro h
    exact Int.eq_of_mul_eq_mul_right (by positivity) h
  · rintro rfl
    rfl

theorem add (hx : Whole x a) (hy : Whole y b) (h : (a + b).natAbs < 2 ^ 53) : Whole (x + y) (a + b) :=
  ⟨h, by rw [unpack_add, hx.unpack, hy.unpack, add_wholeForm hx.small hy.small h,
    unpack_pack_wholeForm h]⟩

theorem sub (hx : Whole x a) (hy : Whole y b) (h : (a - b).natAbs < 2 ^ 53) : Whole (x - y) (a - b) :=
  ⟨h, by rw [unpack_sub, hx.unpack, hy.unpack, sub_wholeForm hx.small hy.small h,
    unpack_pack_wholeForm h]⟩

/-- A nonzero whole number negated. -/
theorem neg (hx : Whole x z) (hz : z ≠ 0) : Whole (-x) (-z) :=
  ⟨by rw [Int.natAbs_neg]; exact hx.small, by
    show UnpackedFloat.unpack binary64 (UnpackedFloat.pack binary64 x.toModel.unpack.neg) = _
    rw [hx.unpack, neg_wholeForm hz, unpack_pack_wholeForm (by rw [Int.natAbs_neg]; exact hx.small)]⟩

theorem isFinite (h : Whole x z) : Decimal.isFinite x = true := by
  cases hf : Decimal.isFinite x with
  | true => rfl
  | false =>
    have hfin := isFinite_wholeForm z
    rw [← h.unpack] at hfin
    rcases unpack_of_isFinite_eq_false hf with hn | ⟨s, hn⟩ <;> rw [hn] at hfin <;> cases hfin

theorem isNaN_eq_false (h : Whole x z) : Decimal.isNaN x = false := by
  have hf := h.isFinite
  unfold Decimal.isFinite at hf
  unfold Decimal.isNaN
  simp only [bne_iff_ne, ne_eq] at hf
  simp [hf]

/-- The integer form the service reads off a double holding a whole number is the
number's form. -/
theorem ofFloat (h : Whole x z) : Binary.ofFloat x = Binary.whole z := by
  have hu := unpack_eq_toUnpacked h.isFinite
  rw [h.unpack] at hu
  exact eq_of_toUnpacked_eq hu.symm (exp_ofFloat_of_mant_eq_zero x) (exp_whole_of_mant_eq_zero z)

/-- Rebuilding the bits of a natural number's form gives the number's double. -/
theorem toFloat_whole {c : Nat} (hc : c < 2 ^ 53) : Whole (Binary.whole c).toFloat c := by
  have h := toFloat hc
  rw [← h.ofFloat, toFloat_ofFloat]
  exact h

/-- Truncation gives a natural number held by a double back. -/
theorem toUInt64 {n : Nat} (h : Whole x n) : x.toUInt64.toNat = n := by
  show (UInt64.ofNatClamp ((x.toModel.unpack.toInt 0 (UInt64.size - 1)).toNat)).toNat = n
  rw [h.unpack]
  have hn : n < 2 ^ 53 := by simpa using h.small
  by_cases h0 : n = 0
  · subst h0
    rfl
  · have hz : (n : Int) ≠ 0 := by exact_mod_cast h0
    have hL : n.log2 < 53 := log2_lt_of_lt (by omega) hn
    rw [wholeForm_of_ne hz, decide_eq_false (by omega)]
    simp only [Int.natAbs_natCast, UnpackedFloat.toInt, roundToInt, decreaseExponent, shiftToExponent]
    rw [show (((n.log2 : Int) - 52 - 0).toNat) = 0 by omega, Nat.shiftLeft_zero,
      mantissa_shiftRight, show ((0 : Int) - ((n.log2 : Int) - 52 - ((0 : Nat) : Int))).toNat = 52 - n.log2 by omega]
    simp only [ExtendedMantissa.ofMantissaAndAccuracy]
    rw [Nat.shiftLeft_eq, Nat.mul_div_cancel _ (Nat.two_pow_pos _),
      show (signOf false).apply (n : Int) = n from rfl, Int.toNat_natCast]
    rw [UInt64.ofNatClamp_eq_ofNat _ (by show n < 2 ^ 64; omega), UInt64.toNat_ofNat',
      Nat.mod_eq_of_lt (by omega)]

/-- The remainder of a natural number divided by a positive one, both held by doubles:
both are brought to the smaller exponent, where the integer remainder is exact. -/
theorem remainder {a b : Nat} (hx : Whole x a) (hy : Whole y b) (hb : 0 < b) :
    Whole (Decimal.remainder x y) (a % b : Nat) := by
  have ha' : a < 2 ^ 53 := by simpa using hx.small
  have hb' : b < 2 ^ 53 := by simpa using hy.small
  have hy0 : (y == 0) = false := by
    cases h : y == 0
    · rfl
    · have := (beq_iff hy zero).1 h
      omega
  unfold Decimal.remainder
  rw [hy.isNaN_eq_false, hx.isFinite, hy.isFinite, hy0]
  simp only [Bool.not_true, Bool.or_self, Bool.false_or, Bool.false_eq_true, if_false]
  by_cases ha : a = 0
  · -- a zero is its own remainder
    subst ha
    rw [if_pos ((beq_iff hx zero).2 rfl)]
    simpa using hx
  rw [if_neg (by rw [Bool.not_eq_true, ← Bool.not_eq_true]; exact fun h => ha (by exact_mod_cast (beq_iff hx zero).1 h)),
    hx.ofFloat, hy.ofFloat, whole_natCast ha, whole_natCast (by omega)]
  dsimp only
  have hLa : a.log2 < 53 := log2_lt_of_lt (by omega) ha'
  have hLb : b.log2 < 53 := log2_lt_of_lt hb hb'
  obtain ⟨j, hj⟩ : ∃ j : Nat, min ((a.log2 : Int) - 52) ((b.log2 : Int) - 52) = -j :=
    ⟨(-(min ((a.log2 : Int) - 52) ((b.log2 : Int) - 52))).toNat, by omega⟩
  have hscale (n : Nat) (hn : n.log2 < 53) (hj' : 52 - n.log2 ≤ j) :
      n <<< (52 - n.log2) * Nat.pow 2 ((n.log2 : Int) - 52 - -(j : Int)).toNat = n * 2 ^ j := by
    rw [Nat.pow_eq, Nat.shiftLeft_eq, Nat.mul_assoc, ← Nat.pow_add]
    congr 2
    omega
  rw [hj, hscale a hLa (by omega), hscale b hLb (by omega), Nat.mul_mod_mul_right]
  -- the remainder is at most either operand, so it fits at that exponent
  have hr : (a % b).log2 + j ≤ 52 := by
    rcases Nat.eq_zero_or_pos (a % b) with h0 | hpos
    · rw [h0]
      simp only [Nat.log2_zero, Nat.zero_add]
      omega
    · have hla : (a % b).log2 ≤ a.log2 :=
        Nat.le_of_lt_succ (log2_lt_of_lt hpos (lt_of_le_of_lt (Nat.mod_le a b) Nat.lt_log2_self))
      have hlb : (a % b).log2 ≤ b.log2 :=
        Nat.le_of_lt_succ (log2_lt_of_lt hpos (lt_trans (Nat.mod_lt a hb) Nat.lt_log2_self))
      omega
  unfold ofScaled
  rw [normal_whole hr]
  exact toFloat_whole (lt_of_le_of_lt (Nat.mod_le a b) ha')

end Whole

/-! ### Doubles of integer value -/

/-- The double `x` is finite and its value is the integer `z`, of any size (a zero of
either sign has the value 0). -/
structure Integral (x : Float) (z : Int) : Prop where
  finite : Decimal.isFinite x = true
  rank : Decimal.rank x = z * 2 ^ 1074

theorem Whole.integral {x : Float} {z : Int} (h : Whole x z) : Integral x z := ⟨h.isFinite, h.rank⟩

namespace Integral

variable {x y : Float} {a b z : Int}

theorem isNaN (h : Integral x z) : x.isNaN = false := isNaN_eq_false h.finite

theorem lt_iff (hx : Integral x a) (hy : Integral y b) : x < y ↔ a < b := by
  rw [lt_iff_rank_lt hx.isNaN hy.isNaN, hx.rank, hy.rank]
  exact ⟨fun h => Int.lt_of_mul_lt_mul_right h (by positivity),
    fun h => Int.mul_lt_mul_of_pos_right h (by positivity)⟩

theorem le_iff (hx : Integral x a) (hy : Integral y b) : x ≤ y ↔ a ≤ b := by
  rw [le_iff_rank_le hx.isNaN hy.isNaN, hx.rank, hy.rank]
  exact ⟨fun h => Int.le_of_mul_le_mul_right h (by positivity),
    fun h => Int.mul_le_mul_of_nonneg_right h (by positivity)⟩

/-- A positive integer below `2^53` has one double: a finite double of that value holds
it as a whole number. -/
theorem whole (h : Integral x z) (hz : 0 < z) (hz' : z < 2 ^ 53) : Whole x z := by
  obtain ⟨n, rfl⟩ := Int.eq_ofNat_of_zero_le hz.le
  have hn : 0 < n := by exact_mod_cast hz
  have hn' : n < 2 ^ 53 := by exact_mod_cast hz'
  have hL : n.log2 < 53 := log2_lt_of_lt hn hn'
  have hr := h.rank
  rw [rank_eq h.finite] at hr
  have hm : (Binary.ofFloat x).mant ≠ 0 := by
    intro h0
    rw [h0, Nat.zero_mul, Nat.cast_zero] at hr
    have : (signOf (Binary.ofFloat x).neg).apply 0 = 0 := by cases signOf (Binary.ofFloat x).neg <;> rfl
    rw [this] at hr
    have : (0 : Int) < (n : Int) * 2 ^ 1074 := by positivity
    omega
  obtain ⟨hpos, hlt, hlo, -, hfull⟩ := valid_ofFloat h.finite hm
  generalize hb : Binary.ofFloat x = b at hr hpos hlt hlo hfull
  obtain ⟨neg, m, e⟩ := b
  dsimp only at hr hpos hlt hlo hfull
  have hneg : neg = false := by
    cases neg
    · rfl
    · simp only [signOf, if_true, Sign.apply] at hr
      have : (0 : Int) < (n : Int) * 2 ^ 1074 := by positivity
      omega
  subst hneg
  have hmag : m * 2 ^ (e + 1074).toNat = n * 2 ^ 1074 := by
    simp only [signOf, Bool.false_eq_true, if_false, Sign.apply] at hr
    exact_mod_cast hr
  have hfull' : 2 ^ 52 ≤ m := by
    rcases hfull with hfull | hfull
    · exact hfull
    · subst hfull
      rw [show ((-1074 : Int) + 1074).toNat = 0 from rfl, Nat.pow_zero, Nat.mul_one] at hmag
      have hbig : 2 ^ 53 < 2 ^ 1074 := Nat.pow_lt_pow_right (by decide) (by decide)
      have : 2 ^ 1074 ≤ n * 2 ^ 1074 := Nat.le_mul_of_pos_left _ hn
      omega
  have hmL : m.log2 = 52 := (Nat.log2_eq_iff (by omega)).2 ⟨hfull', hlt⟩
  have hlog := congrArg Nat.log2 hmag
  rw [← Nat.shiftLeft_eq, ← Nat.shiftLeft_eq, log2_shiftLeft hpos, log2_shiftLeft hn, hmL] at hlog
  have he : e = (n.log2 : Int) - 52 := by omega
  have hmant : m = n <<< (52 - n.log2) := by
    rw [Nat.shiftLeft_eq]
    have hsplit : (2 : Nat) ^ 1074 = 2 ^ (52 - n.log2) * 2 ^ (n.log2 + 1022) := by
      have h1074 : 52 - n.log2 + (n.log2 + 1022) = 1074 := by omega
      rw [← Nat.pow_add, h1074]
    rw [show (e + 1074).toNat = n.log2 + 1022 by omega, hsplit, ← Nat.mul_assoc] at hmag
    exact Nat.eq_of_mul_eq_mul_right (Nat.two_pow_pos _) hmag
  refine ⟨by simpa using hz', ?_⟩
  rw [unpack_eq_toUnpacked h.finite, hb, he, hmant, wholeForm, whole_natCast (by omega)]

end Integral

/-! ### Clamping at zero

`max x 0` on doubles is `if x ≤ 0 then 0 else x`: a whole number is cut at zero as
an integer is, and anything below zero gives zero. -/

/-- Not-a-number is below nothing. -/
theorem isNaN_eq_false_of_lt {x y : Float} (h : x < y) : x.isNaN = false := by
  cases hx : x.isNaN with
  | false => rfl
  | true =>
    rw [lt_iff_unpack, unpack_of_isNaN hx] at h
    have hnan : UnpackedFloat.notANumber.lt y.toModel.unpack = false := by
      cases y.toModel.unpack <;> rfl
    exact absurd h (by rw [hnan]; decide)

/-- A double below zero is below every double of whole value at least zero. -/
theorem lt_of_lt_zero {x y : Float} {b : Int} (hx : x < 0) (hy : Whole y b) (hb : 0 ≤ b) : x < y := by
  have hxn := isNaN_eq_false_of_lt hx
  have hneg := (lt_iff_rank_lt hxn Whole.zero.isNaN).1 hx
  rw [Whole.zero.rank, Int.zero_mul] at hneg
  rw [lt_iff_rank_lt hxn hy.isNaN, hy.rank]
  exact Int.lt_of_lt_of_le hneg (Int.mul_nonneg hb (by positivity))

theorem max_zero_of_lt {x : Float} (h : x < 0) : max x 0 = 0 := by
  show (if x ≤ 0 then 0 else x) = 0
  have hxn := isNaN_eq_false_of_lt h
  have hle : x ≤ 0 := (le_iff_rank_le hxn Whole.zero.isNaN).2
    (Int.le_of_lt ((lt_iff_rank_lt hxn Whole.zero.isNaN).1 h))
  rw [if_pos hle]

theorem Whole.max_zero {x : Float} {w : Int} (hx : Whole x w) : Whole (max x 0) w.toNat := by
  show Whole (if x ≤ 0 then 0 else x) _
  by_cases hw : w ≤ 0
  · rw [if_pos ((hx.le_iff Whole.zero).2 hw), Int.toNat_of_nonpos hw]
    exact Whole.zero
  · rw [if_neg (fun h => hw ((hx.le_iff Whole.zero).1 h)), Int.toNat_of_nonneg (by omega)]
    exact hx

/-! ### Truncation

Truncation toward zero (`Float.toUInt64`) never moves a double of positive sign up:
one at most a whole number truncates to at most that number. -/

/-- The absolute value of a double other than not-a-number has the positive sign. -/
theorem signed_abs {x : Float} (hx : x.isNaN = false) : Signed .positive x.abs.toModel.unpack := by
  show Signed .positive (UnpackedFloat.unpack binary64 (UnpackedFloat.pack binary64 x.toModel.unpack.abs))
  apply Signed.unpack_pack
  cases hu : x.toModel.unpack with
  | notANumber =>
    have : x.isNaN = true := by show x.toModel.unpack.isNaN = true; rw [hu]; rfl
    rw [this] at hx
    cases hx
  | infinity s => exact .infinity
  | zero s => exact .zero _
  | finite s m e h => exact .finite m e h

/-- Truncating a finite double of positive sign and magnitude `m · 2^e` drops the
fraction: it is `m · 2^e` rounded down. -/
theorem roundToInt_positive (m : Nat) {e : Int} (he : -1074 ≤ e) :
    roundToInt .positive m e * 2 ^ 1074 ≤ ((m * 2 ^ (e + 1074).toNat : Nat) : Int) := by
  simp only [roundToInt, decreaseExponent, shiftToExponent, mantissa_shiftRight,
    ExtendedMantissa.ofMantissaAndAccuracy, Sign.apply]
  rcases le_or_gt 0 e with hpos | hneg
  · -- a whole exponent: the mantissa moves up and nothing is cut
    rw [show (e - 0).toNat = e.toNat by omega, show (0 - (e - (e.toNat : Int))).toNat = 0 by omega,
      Nat.pow_zero, Nat.div_one, Nat.shiftLeft_eq, show (e + 1074).toNat = e.toNat + 1074 by omega,
      Nat.pow_add, ← Nat.mul_assoc]
    push_cast
    exact le_refl _
  · -- a fractional exponent: the bits below the point are cut
    rw [show (e - 0).toNat = 0 by omega, Nat.shiftLeft_zero, show (0 - (e - ((0 : Nat) : Int))).toNat = (-e).toNat by omega]
    have hsplit : (2 : Nat) ^ 1074 = 2 ^ (-e).toNat * 2 ^ (e + 1074).toNat := by
      rw [← Nat.pow_add]; congr 1; omega
    have hdiv : m / 2 ^ (-e).toNat * 2 ^ (-e).toNat ≤ m := Nat.div_mul_le_self m _
    have : m / 2 ^ (-e).toNat * 2 ^ 1074 ≤ m * 2 ^ (e + 1074).toNat := by
      rw [hsplit, ← Nat.mul_assoc]
      exact Nat.mul_le_mul_right _ hdiv
    exact_mod_cast this

/-- A double of positive sign at most a whole number `n` truncates to at most `n`. -/
theorem toUInt64_le {a w : Float} {n : Nat} (hw : Whole w n) (ha : Signed .positive a.toModel.unpack)
    (hle : a ≤ w) : a.toUInt64.toNat ≤ n := by
  have hr := (le_iff_rank_le ha.isNaN hw.isNaN).1 hle
  rw [hw.rank] at hr
  have hc := canonical_toModel ha.isNaN
  show (UInt64.ofNatClamp ((a.toModel.unpack.toInt 0 (UInt64.size - 1)).toNat)).toNat ≤ n
  unfold Decimal.rank at hr
  generalize a.toModel.unpack = u at hr ha hc ⊢
  have hclamp (k : Nat) (hk : k ≤ n) : (UInt64.ofNatClamp k).toNat ≤ n := by
    have hn : n < 2 ^ 53 := by simpa using hw.small
    rw [UInt64.ofNatClamp_eq_ofNat _ (by show k < 2 ^ 64; omega), UInt64.toNat_ofNat',
      Nat.mod_eq_of_lt (by omega)]
    exact hk
  cases ha with
  | zero t => exact hclamp 0 (Nat.zero_le _)
  | infinity =>
    have hn : (n : Int) < 2 ^ 53 := by simpa using hw.small
    have : (n : Int) * 2 ^ 1074 < beyond := by
      unfold beyond
      have : (n : Int) * 2 ^ 1074 < 2 ^ 53 * 2 ^ 1074 := Int.mul_lt_mul_of_pos_right hn (by positivity)
      calc (n : Int) * 2 ^ 1074 < 2 ^ 53 * 2 ^ 1074 := this
        _ ≤ ((2 ^ 2100 : Nat) : Int) := by rw [← pow_add]; push_cast; exact pow_le_pow_right₀ (by decide) (by decide)
    simp only [rankOf] at hr
    omega
  | finite m e h =>
    cases hc with
    | finite _ _ _ _ _ hlo _ _ =>
      have hround := roundToInt_positive m hlo
      simp only [rankOf, Sign.apply] at hr
      apply hclamp
      have hle : roundToInt .positive m e ≤ n := by
        have := Int.le_trans hround hr
        exact Int.le_of_mul_le_mul_right this (by positivity)
      simp only [UnpackedFloat.toInt]
      omega

end LaneGate.Decimal
