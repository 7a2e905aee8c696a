import LaneGate.Proofs.Decimal.Scaled
/-!
# The shortest decimal lies in the rounding interval

`shortest m e` looks for the decimal of a positive double on the grids of 1, 2, …
17 significant digits, below the decimal point `decimalPoint m e`. What the
roundtrip of a number through its text needs is that the search never falls back:
some grid succeeds, and what it returns lies in the double's rounding interval.

Three facts carry it. The estimated decimal point is never too large
(`decimalPoint_le`): the estimate from the binary length is at most three too
large, which a check over every length a double can have confirms, and the
corrections bring it down from there. A grid finer than the rounding interval
always has one of the two points around the double inside the interval
(`onGrid_ne_none`). The grid of seventeen digits below that point is finer than
the interval, since `2^53 < 10^16`.

Main statement: `shortest_holds`.
-/

namespace LaneGate.Decimal

/-! ## The decimal point -/

/-- The estimate of the decimal point from a binary length `L` is at most three too
large, for every length from the least subnormal to the largest double. -/
theorem estimate_fits : (List.range 2098).all (fun i =>
    cmpScaled 1 (((i : Int) - 1074) * 30103 / 100000 - 2) 1 ((i : Int) - 1074) != .gt) = true := by
  decide +kernel

theorem pow_ten_estimate_le {L : Int} (hlo : -1074 ≤ L) (hhi : L ≤ 1023) :
    (10 : ℚ) ^ (L * 30103 / 100000 - 2) ≤ 2 ^ L := by
  have h := List.all_eq_true.1 estimate_fits (L + 1074).toNat (List.mem_range.2 (by omega))
  rw [show ((L + 1074).toNat : Int) - 1074 = L by omega, cmpScaled_eq] at h
  simpa only [Nat.cast_one, one_mul, bne_iff_ne, ne_eq, compare_gt_iff_gt, not_lt] using h

/-- A positive mantissa is at least the power of two of its length. -/
theorem two_pow_log2_le {m : Nat} (hm : 0 < m) (e : Int) :
    (2 : ℚ) ^ ((Nat.log2 m : Int) + e) ≤ m * 2 ^ e := by
  rw [zpow_add₀ (by norm_num), zpow_natCast]
  have h : ((2 ^ Nat.log2 m : Nat) : ℚ) ≤ m := Nat.cast_le.2 (Nat.log2_self_le (Nat.pos_iff_ne_zero.1 hm))
  push_cast at h
  exact mul_le_mul_of_nonneg_right h (by positivity)

/-- The decimal point of a double is never too large: `10^(n-1)` is at most the
value. -/
theorem decimalPoint_le {m : Nat} {e : Int} (hm : 0 < m) (hm' : m < 2 ^ 53) (hlo : -1074 ≤ e)
    (hhi : e ≤ 971) : (10 : ℚ) ^ (decimalPoint m e - 1) ≤ m * 2 ^ e := by
  have hv : (0 : ℚ) < m * 2 ^ e := by positivity
  -- every comparison with a power of ten is a comparison with the decimal logarithm
  have hP : ∀ k : Int, (10 : ℚ) ^ k ≤ m * 2 ^ e ↔ k ≤ Int.log 10 ((m : ℚ) * 2 ^ e) := fun k => by
    exact_mod_cast Int.zpow_le_iff_le_log (b := 10) (by norm_num) hv
  have hlen : Nat.log2 m < 53 := (Nat.log2_lt (Nat.pos_iff_ne_zero.1 hm)).2 hm'
  have hest : ((Nat.log2 m : Int) + e) * 30103 / 100000 - 2 ≤ Int.log 10 ((m : ℚ) * 2 ^ e) :=
    (hP _).1 ((pow_ten_estimate_le (by omega) (by omega)).trans (two_pow_log2_le hm e))
  have hup : ∀ k, (cmpScaled 1 k m e != .gt) = decide (k ≤ Int.log 10 ((m : ℚ) * 2 ^ e)) := by
    intro k
    rw [cmpScaled_eq, Nat.cast_one, one_mul, Bool.eq_iff_iff, decide_eq_true_iff, ← hP k]
    simp only [bne_iff_ne, ne_eq, compare_gt_iff_gt, not_lt]
  have hdown : ∀ k, (cmpScaled 1 (k - 1) m e == .gt) = decide (Int.log 10 ((m : ℚ) * 2 ^ e) < k - 1) := by
    intro k
    rw [cmpScaled_eq, Nat.cast_one, one_mul, Bool.eq_iff_iff, decide_eq_true_iff, ← not_le, ← hP]
    simp only [beq_iff_eq, compare_gt_iff_gt, not_le]
  rw [hP]
  unfold decimalPoint
  simp only [hup, hdown, decide_eq_true_eq]
  split_ifs <;> omega

/-! ## One grid -/

/-- What a grid returns: a positive decimal on that grid, inside the rounding
interval. -/
theorem onGrid_some {m : Nat} {e n : Int} {k : Nat} {s : Nat} {p : Int}
    (h : onGrid m e n k = some (s, p)) :
    p = n - k ∧ 0 < s ∧ (Rounding.of m e).accepts e s p = true := by
  unfold onGrid at h
  dsimp only at h
  generalize floorScaled (Rounding.of m e).mid (e - 2) (n - k) = s0 at h
  have below : (decide (s0 > 0) && (Rounding.of m e).accepts e s0 (n - k)) = true →
      some (s0, n - k) = some (s, p) → p = n - k ∧ 0 < s ∧ (Rounding.of m e).accepts e s p = true := by
    intro hin h
    simp only [Option.some.injEq, Prod.mk.injEq] at h
    obtain ⟨rfl, rfl⟩ := h
    simpa only [Bool.and_eq_true, decide_eq_true_eq, true_and] using hin
  have above : (Rounding.of m e).accepts e (s0 + 1) (n - k) = true →
      some (s0 + 1, n - k) = some (s, p) → p = n - k ∧ 0 < s ∧ (Rounding.of m e).accepts e s p = true := by
    intro hin h
    simp only [Option.some.injEq, Prod.mk.injEq] at h
    obtain ⟨rfl, rfl⟩ := h
    exact ⟨rfl, by omega, hin⟩
  revert h
  by_cases h01 : (decide (s0 > 0) && (Rounding.of m e).accepts e s0 (n - k) &&
      (Rounding.of m e).accepts e (s0 + 1) (n - k)) = true
  · -- both points are inside: the nearer one, a tie going to the even one
    rw [if_pos h01]
    rw [Bool.and_eq_true] at h01
    split
    · exact above h01.2
    · exact below h01.1
    · split
      · exact below h01.1
      · exact above h01.2
  rw [if_neg h01]
  by_cases h0 : (decide (s0 > 0) && (Rounding.of m e).accepts e s0 (n - k)) = true
  · rw [if_pos h0]
    exact below h0
  rw [if_neg h0]
  by_cases h1 : (Rounding.of m e).accepts e (s0 + 1) (n - k) = true
  · rw [if_pos h1]
    exact above h1
  rw [if_neg h1]
  intro h
  cases h

/-- A quarter of the last place of `m · 2^e` is positive, and the value is four of
them per unit of mantissa. -/
theorem two_zpow_eq (e : Int) : (2 : ℚ) ^ e = 4 * 2 ^ (e - 2) := by
  conv_lhs => rw [show e = e - 2 + 2 by ring]
  rw [zpow_add₀ (by norm_num)]
  norm_num
  ring

/-- A grid whose step is below the width of the rounding interval has one of the
two grid points around the double inside it. -/
theorem onGrid_ne_none {m : Nat} (hm : 0 < m) {e n : Int} {k : Nat}
    (hfine : (10 : ℚ) ^ (n - k) <
      (((if m = Nat.pow 2 fracBits ∧ e > -1074 then 1 else 2 : Nat) : ℚ) + 2) * 2 ^ (e - 2)) :
    onGrid m e n k ≠ none := by
  have hd : (0 : ℚ) < 10 ^ (n - k) := by positivity
  have hq : (0 : ℚ) < 2 ^ (e - 2) := by positivity
  generalize hg : (if m = Nat.pow 2 fracBits ∧ e > -1074 then 1 else 2 : Nat) = g at hfine
  have hg2 : g ≤ 2 := by rw [← hg]; split <;> omega
  have hlow : ((Rounding.of m e).low : ℚ) = 4 * m - g := by rw [low_of hm, hg]
  have hhigh := high_of m e
  set s0 := floorScaled (Rounding.of m e).mid (e - 2) (n - k) with hs0
  have hs0' : s0 = ⌊(4 * m : ℚ) * 2 ^ (e - 2) / 10 ^ (n - k)⌋₊ := by
    rw [hs0, floorScaled_eq]
    show ⌊((4 * m : Nat) : ℚ) * _ / _⌋₊ = _
    push_cast
    rfl
  have hbelow : (s0 : ℚ) * 10 ^ (n - k) ≤ 4 * m * 2 ^ (e - 2) := by
    rw [hs0', ← le_div_iff₀ hd]
    exact Nat.floor_le (by positivity)
  have habove : 4 * m * 2 ^ (e - 2) < ((s0 + 1 : Nat) : ℚ) * 10 ^ (n - k) := by
    rw [hs0', ← div_lt_iff₀ hd]
    push_cast
    exact Nat.lt_floor_add_one _
  have hm1 : (1 : ℚ) ≤ m := by exact_mod_cast hm
  have hin : (s0 > 0 && (Rounding.of m e).accepts e s0 (n - k)) = true ∨
      (Rounding.of m e).accepts e (s0 + 1) (n - k) = true := by
    simp only [Bool.and_eq_true, decide_eq_true_eq, accepts_iff, Rounding.Holds, hlow, hhigh]
    by_cases hlo : (4 * m - g : ℚ) * 2 ^ (e - 2) < s0 * 10 ^ (n - k)
    · -- the point below is past the low end, so it is inside
      left
      have hg2' : (g : ℚ) ≤ 2 := by exact_mod_cast hg2
      have hpos : (0 : ℚ) < s0 * 10 ^ (n - k) := lt_of_le_of_lt (by nlinarith) hlo
      refine ⟨Nat.pos_of_ne_zero fun h0 => by simp [h0] at hpos, Or.inl hlo, Or.inl ?_⟩
      nlinarith
    · -- the point below is not, so the point above is within one step of the low end
      right
      push_cast at habove ⊢
      refine ⟨Or.inl (by nlinarith), Or.inl ?_⟩
      nlinarith
  unfold onGrid
  dsimp only
  rw [← hs0]
  by_cases h01 : (decide (s0 > 0) && (Rounding.of m e).accepts e s0 (n - k) &&
      (Rounding.of m e).accepts e (s0 + 1) (n - k)) = true
  · rw [if_pos h01]
    split <;> exact Option.some_ne_none _
  rw [if_neg h01]
  rcases hin with h | h
  · rw [if_pos h]
    exact Option.some_ne_none _
  by_cases h0 : (decide (s0 > 0) && (Rounding.of m e).accepts e s0 (n - k)) = true
  · rw [if_pos h0]
    exact Option.some_ne_none _
  rw [if_neg h0, if_pos h]
  exact Option.some_ne_none _

/-! ## Seventeen digits -/

/-- The grid of seventeen digits below the decimal point is finer than the rounding
interval. -/
theorem onGrid_seventeen {m : Nat} (hm : 0 < m) (hm' : m < 2 ^ 53) {e n : Int}
    (hn : (10 : ℚ) ^ (n - 1) ≤ m * 2 ^ e) : onGrid m e n 17 ≠ none := by
  apply onGrid_ne_none hm
  have hq : (0 : ℚ) < 2 ^ (e - 2) := by positivity
  have hstep : (10 : ℚ) ^ (n - ((17 : Nat) : Int)) * 10 ^ 16 = 10 ^ (n - 1) := by
    rw [← zpow_natCast, ← zpow_add₀ (by norm_num)]
    congr 1
    push_cast
    ring
  rw [two_zpow_eq] at hn
  push_cast at hstep ⊢
  norm_num at hstep
  split_ifs with hg
  · -- at a power of two the interval is three quarters of a place wide
    have hm2 : (m : ℚ) = 2 ^ 52 := by rw [hg.1]; norm_num [Nat.pow_eq, fracBits]
    rw [hm2] at hn
    norm_num at hn ⊢
    linarith
  · have hm3 : (m : ℚ) < 2 ^ 53 := by exact_mod_cast hm'
    have h := mul_lt_mul_of_pos_right hm3 hq
    norm_num at h ⊢
    nlinarith

/-! ## The search -/

/-- **The shortest decimal of a double lies in its rounding interval**: the search
never falls back, and the decimal it returns is a positive number of units on its
grid inside the interval. -/
theorem shortest_holds {m : Nat} {e : Int} (hm : 0 < m) (hm' : m < 2 ^ 53) (hlo : -1074 ≤ e)
    (hhi : e ≤ 971) :
    ∃ s p, 0 < s ∧ shortest m e = Digits.ofScaled s p ∧ (Rounding.of m e).Holds e (s * 10 ^ p) := by
  unfold shortest
  dsimp only
  cases hfind : (List.range 17).findSome? (fun i => onGrid m e (decimalPoint m e) (i + 1)) with
  | some sp =>
    obtain ⟨s, p⟩ := sp
    obtain ⟨i, -, hi⟩ := List.exists_of_findSome?_eq_some hfind
    obtain ⟨-, hs, hacc⟩ := onGrid_some hi
    exact ⟨s, p, hs, rfl, (accepts_iff _ _ _ _).1 hacc⟩
  | none =>
    -- the last grid tried is that of seventeen digits, which always succeeds
    have h16 := List.findSome?_eq_none_iff.1 hfind 16 (List.mem_range.2 (by norm_num))
    exact absurd h16 (onGrid_seventeen hm hm' (decimalPoint_le hm hm' hlo hhi))

end LaneGate.Decimal
