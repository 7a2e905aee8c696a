import LaneGate.Proofs.Routing.Strategies
import LaneGate.Proofs.Routing.Turns
import LaneGate.Script.Routing
import Mathlib.MeasureTheory.Measure.Lebesgue.Basic
/-!
# Picks by weight, at random and by least load

The weighted pick is written for any number type (`byWeight`); the balancer runs it on
doubles. Here it is read with exact numbers, over `ℝ`, on weights cut at zero. With a
positive total `W`, a draw `r` in `[0, 1)` picks the first index whose running total
exceeds `r · W` (`byWeight_eq_some_iff`). The scan always stops there, so the fallback to
the last index is never taken (`byWeight_of_sum_pos`), and the weight picked is positive.
The draws that pick index `j` fill an interval of length `w_j / W`, so a uniform draw
picks `j` with that probability (`volume_byWeight`). With a total of zero the pick is left
to the random one (`byWeight_of_sum_nonpos`).

At random, `⌊r · n⌋` is a position among `n` items, and a double holding it finds the
item there (`itemAt_floor`).

The scans for the fewest requests in flight and the least expected latency
(`Balancer.firstBest`) compare doubles. When every score is a number, they find the first
candidate of least score if that score is below infinity (`firstBest_eq_some_iff`), and
nothing otherwise (`firstBest_eq_none_iff`). Counts in flight are compared as the
integers they are (`firstLeast_inFlight`).

The rounding of the running totals and of `r · W` by doubles is not treated here.
-/

namespace LaneGate

open MeasureTheory Set

namespace Decimal

/-- A whole number held exactly lies below infinity. -/
theorem Whole.lt_infinity {x : Float} {z : Int} (hx : Whole x z) : x < infinity := by
  rw [lt_iff_rank_lt hx.isNaN isNaN_infinity, hx.rank, rank_infinity, beyond]
  have hz : z < 2 ^ 53 := by
    have := hx.small
    omega
  calc z * 2 ^ 1074 < 2 ^ 53 * 2 ^ 1074 := Int.mul_lt_mul_of_pos_right hz (by positivity)
    _ ≤ ((2 ^ 2100 : Nat) : Int) := by
      rw [← pow_add, Nat.cast_pow, Nat.cast_ofNat]
      exact pow_le_pow_right₀ (by norm_num) (by norm_num)

end Decimal

/-! ### The weighted pick, read with exact numbers -/

section Weights

variable {α : Type} [Add α] [LT α] [DecidableRel (α := α) (· < ·)]

theorem firstAbove_succ (t : α) (ws : List α) (i : Nat) (acc : α) :
    firstAbove t ws (i + 1) acc = (firstAbove t ws i acc).map (· + 1) := by
  induction ws generalizing i acc with
  | nil => rfl
  | cons w ws ih =>
    unfold firstAbove
    split
    · rfl
    · exact ih (i + 1) (acc + w)

end Weights

variable {ws : List ℝ} {t acc r : ℝ}

theorem sum_take_nonneg (hw : ∀ w ∈ ws, 0 ≤ w) (k : Nat) : 0 ≤ (ws.take k).sum :=
  List.sum_nonneg fun w hw' => hw w (List.mem_of_mem_take hw')

theorem sum_take_le_sum_take (hw : ∀ w ∈ ws, 0 ≤ w) {i j : Nat} (hij : i ≤ j) :
    (ws.take i).sum ≤ (ws.take j).sum :=
  (List.take_sublist_take_left hij).sum_le_sum fun w h => hw w ((List.take_sublist j ws).subset h)

/-- From a running total at most the target, the scan stops at index `j` exactly when the
target lies in the `j`-th weight's interval of running totals. -/
theorem firstAbove_eq_some_iff (hw : ∀ w ∈ ws, 0 ≤ w) (hacc : acc ≤ t) {j : Nat}
    (hj : j < ws.length) :
    firstAbove t ws 0 acc = some j ↔
      acc + (ws.take j).sum ≤ t ∧ t < acc + (ws.take j).sum + ws[j] := by
  induction ws generalizing acc j with
  | nil => exact absurd hj (Nat.not_lt_zero _)
  | cons w ws ih =>
    have hws : ∀ w ∈ ws, 0 ≤ w := fun w' h => hw w' (List.mem_cons_of_mem w h)
    rw [firstAbove, Nat.zero_add, firstAbove_succ]
    cases j with
    | zero =>
      by_cases hlt : t < acc + w
      · simp [hlt, hacc]
      · simp [hlt]
    | succ j =>
      have hj' : j < ws.length := Nat.lt_of_succ_lt_succ hj
      simp only [List.take_succ_cons, List.sum_cons, List.getElem_cons_succ]
      by_cases hlt : t < acc + w
      · have := sum_take_nonneg hws j
        simp only [hlt, if_true, Option.some.injEq, Nat.zero_ne_add_one, false_iff, not_and, not_lt]
        intro h
        linarith
      · rw [if_neg hlt, Option.map_eq_some_iff]
        simp only [Nat.add_right_cancel_iff, exists_eq_right]
        rw [ih hws (not_lt.1 hlt) hj', ← add_assoc]

/-- A target below the whole total is passed by some running total. -/
theorem exists_firstAbove (hw : ∀ w ∈ ws, 0 ≤ w) (hacc : acc ≤ t) (ht : t < acc + ws.sum) :
    ∃ j, j < ws.length ∧ firstAbove t ws 0 acc = some j := by
  induction ws generalizing acc with
  | nil =>
    rw [List.sum_nil, add_zero] at ht
    exact absurd hacc (not_le.2 ht)
  | cons w ws ih =>
    have hws : ∀ w ∈ ws, 0 ≤ w := fun w' h => hw w' (List.mem_cons_of_mem w h)
    rw [firstAbove, Nat.zero_add, firstAbove_succ]
    by_cases hlt : t < acc + w
    · exact ⟨0, by simp, if_pos hlt⟩
    · rw [List.sum_cons, ← add_assoc] at ht
      obtain ⟨j, hj, hfa⟩ := ih hws (not_lt.1 hlt) ht
      exact ⟨j + 1, by simpa using hj, by rw [if_neg hlt, hfa]; rfl⟩

/-- With a total not above zero, the pick is left to the random one. -/
theorem byWeight_of_sum_nonpos (atRandom : ℝ → Option Nat) (r : ℝ) (h : ws.sum ≤ 0) :
    byWeight atRandom r ws = atRandom r := by
  rw [byWeight, ← List.sum_eq_foldl, if_pos h]

theorem mul_sum_mem (hr : r ∈ Ico 0 1) (h : 0 < ws.sum) :
    0 ≤ r * ws.sum ∧ r * ws.sum < 0 + ws.sum :=
  ⟨mul_nonneg hr.1 h.le, by rw [zero_add]; exact mul_lt_of_lt_one_left h hr.2⟩

/-- Index `i` is the first whose running total passes `t`: the scan from zero stops
there, and the weight there is positive. -/
structure FirstPast (ws : List ℝ) (t : ℝ) (i : Nat) : Prop where
  found : firstAbove t ws 0 0 = some i
  past : t < (ws.take (i + 1)).sum
  first : ∀ k < i, (ws.take (k + 1)).sum ≤ t
  positive : ∃ h : i < ws.length, 0 < ws[i]

section Pick

variable (atRandom : ℝ → Option Nat) (hw : ∀ w ∈ ws, 0 ≤ w) (h : 0 < ws.sum)
include hw h

/-- With a positive total, a draw in `[0, 1)` is passed by some running total: the pick is
the index the scan stops at, never the fallback to the last. -/
theorem byWeight_of_sum_pos (hr : r ∈ Ico 0 1) :
    ∃ j, j < ws.length ∧ firstAbove (r * ws.sum) ws 0 0 = some j ∧
      byWeight atRandom r ws = some j := by
  obtain ⟨j, hj, hfa⟩ := exists_firstAbove hw (mul_sum_mem hr h).1 (mul_sum_mem hr h).2
  refine ⟨j, hj, hfa, ?_⟩
  rw [byWeight, ← List.sum_eq_foldl, if_neg (not_le.2 h), hfa]
  rfl

theorem byWeight_eq_some_iff (hr : r ∈ Ico 0 1) {j : Nat} (hj : j < ws.length) :
    byWeight atRandom r ws = some j ↔
      (ws.take j).sum ≤ r * ws.sum ∧ r * ws.sum < (ws.take j).sum + ws[j] := by
  obtain ⟨i, -, hfa, hbw⟩ := byWeight_of_sum_pos atRandom hw h hr
  have hiff := firstAbove_eq_some_iff hw (mul_sum_mem hr h).1 hj
  rw [hfa, zero_add] at hiff
  rw [hbw, hiff]

/-- The draws in `[0, 1)` that pick index `j` form the interval between the running totals
before and after it, each divided by the total. -/
theorem byWeight_preimage {j : Nat} (hj : j < ws.length) :
    {r | byWeight atRandom r ws = some j} ∩ Ico 0 1 =
      Ico ((ws.take j).sum / ws.sum) (((ws.take j).sum + ws[j]) / ws.sum) := by
  have hnext : (ws.take j).sum + ws[j] ≤ ws.sum := by
    rw [← List.sum_take_succ ws j hj]
    exact (List.take_sublist _ _).sum_le_sum hw
  ext r
  simp only [mem_inter_iff, mem_ofPred_eq, mem_Ico, div_le_iff₀ h, lt_div_iff₀ h]
  constructor
  · rintro ⟨hpick, hr⟩
    exact (byWeight_eq_some_iff atRandom hw h hr hj).1 hpick
  · rintro ⟨hlo, hhi⟩
    have hr : r ∈ Ico 0 1 :=
      ⟨nonneg_of_mul_nonneg_left ((sum_take_nonneg hw j).trans hlo) h,
        (mul_lt_iff_lt_one_left h).1 (hhi.trans_le hnext)⟩
    exact ⟨(byWeight_eq_some_iff atRandom hw h hr hj).2 ⟨hlo, hhi⟩, hr⟩

/-- The pick is the first index whose running total passes `r` times the total, and its
weight is positive. -/
theorem firstPast_of_byWeight (hr : r ∈ Ico 0 1) {j : Nat}
    (hpick : byWeight atRandom r ws = some j) : FirstPast ws (r * ws.sum) j := by
  obtain ⟨i, hi, hfa, hbw⟩ := byWeight_of_sum_pos atRandom hw h hr
  rw [hbw, Option.some.injEq] at hpick
  subst hpick
  obtain ⟨hlo, hhi⟩ := (byWeight_eq_some_iff atRandom hw h hr hi).1 hbw
  refine ⟨hfa, by rwa [List.sum_take_succ ws i hi], fun k hk => ?_, hi, ?_⟩
  · exact (sum_take_le_sum_take hw hk).trans hlo
  · linarith

/-- A uniform draw from `[0, 1)` picks index `j` with probability its weight's share of
the total. -/
theorem volume_byWeight {j : Nat} (hj : j < ws.length) :
    volume.restrict (Ico 0 1) {r | byWeight atRandom r ws = some j} =
      ENNReal.ofReal (ws[j] / ws.sum) := by
  rw [Measure.restrict_apply' measurableSet_Ico, byWeight_preimage atRandom hw h hj,
    Real.volume_Ico, ← sub_div, add_sub_cancel_left]

end Pick

/-! ### At random -/

/-- Read with exact numbers, the position `⌊r · n⌋` of a draw `r` in `[0, 1)` is one of
`n ≥ 1` items, and a double holding it finds the item there. -/
theorem itemAt_floor (xs : List Json) (hxs : xs ≠ []) (hn : xs.length < 2 ^ 53)
    (hr : r ∈ Ico 0 1) :
    ∃ j, ∃ hj : j < xs.length, ⌊r * xs.length⌋ = j ∧
      ∀ x : Float, Decimal.Whole x j → Script.itemAt (.arr xs) x = some xs[j] := by
  have hpos : (0 : ℝ) < xs.length := Nat.cast_pos.2 (List.length_pos_iff.2 hxs)
  have h0 : 0 ≤ ⌊r * xs.length⌋ := Int.floor_nonneg.2 (mul_nonneg hr.1 hpos.le)
  have hlt : ⌊r * xs.length⌋ < xs.length := by
    rw [Int.floor_lt, Int.cast_natCast]
    exact mul_lt_of_lt_one_left hpos hr.2
  refine ⟨⌊r * xs.length⌋.toNat, by omega, Int.toNat_of_nonneg h0 |>.symm, fun x hx => ?_⟩
  show (positionBelow xs.length x).bind (xs[·]?) = _
  rw [positionBelow_whole hx (by omega) hn, Option.bind_some, List.getElem?_eq_getElem]

/-! ### The first of least score -/

theorem mem_of_split {α : Type} {xs pre post : List α} {p q : α} (hsplit : xs = pre ++ p :: post)
    (hq : q ∈ pre ∨ q ∈ post) : q ∈ xs := by
  rw [hsplit, List.mem_append, List.mem_cons]
  tauto

namespace Balancer

open Sorting

variable {κ : Type} {score : Candidate κ → Primitive} {f : Candidate κ → Float}
  {cs pre post : List (Candidate κ)} {p : Candidate κ}

/-- Of scores that are numbers, the first least is below infinity when any score is. -/
theorem lt_infinity_of_firstLeast (hv : ∀ q ∈ cs, (f q).isNaN = false)
    (h : FirstLeast f cs pre p post) {q : Candidate κ} (hq : q ∈ cs)
    (hlt : f q < Decimal.infinity) : f p < Decimal.infinity := by
  have hleast := h.least hv q hq
  rw [Decimal.lt_iff_rank_lt (hv q hq) (hv p h.mem)] at hleast
  rw [Decimal.lt_iff_rank_lt (hv q hq) Decimal.isNaN_infinity] at hlt
  rw [Decimal.lt_iff_rank_lt (hv p h.mem) Decimal.isNaN_infinity]
  omega

section Scan

variable (hs : ∀ q ∈ cs, score q = .num (f q) ∧ (f q).isNaN = false)
include hs

theorem firstBest_of_firstLeast (h : FirstLeast f cs pre p post)
    (hinf : f p < Decimal.infinity) : firstBest score cs = some pre.length := by
  have hpre : ∀ q ∈ pre, score q = .num (f q) ∧ f p < f q := fun q hq =>
    ⟨(hs q (mem_of_split h.split (.inl hq))).1, h.earlier q hq⟩
  have hpost : ∀ q ∈ post, score q = .num (f q) ∧ ¬ f q < f p := fun q hq =>
    ⟨(hs q (mem_of_split h.split (.inr hq))).1, h.later q hq⟩
  rw [h.split, firstBest_eq_foldl,
    foldl_scanStep_first_least (hs p h.mem).1 hpost pre none _ 0 hpre hinf, Nat.zero_add]

/-- The scan finds nothing exactly when no score is below infinity. -/
theorem firstBest_eq_none_iff :
    firstBest score cs = none ↔ ∀ q ∈ cs, ¬ f q < Decimal.infinity := by
  have hv : ∀ q ∈ cs, (f q).isNaN = false := fun q hq => (hs q hq).2
  constructor
  · intro hnone q hq hlt
    obtain ⟨pre, p, post, h⟩ := exists_firstLeast f hv (List.ne_nil_of_mem hq)
    rw [firstBest_of_firstLeast hs h (lt_infinity_of_firstLeast hv h hq hlt)] at hnone
    cases hnone
  · intro hno
    rw [firstBest_eq_foldl, foldl_scanStep_keep cs none 0 fun q hq => ⟨(hs q hq).1, hno q hq⟩]

/-- The scan finds index `i` exactly when `i` is the position of the first candidate of
least score and that score is below infinity. -/
theorem firstBest_eq_some_iff (i : Nat) :
    firstBest score cs = some i ↔
      ∃ pre p post, FirstLeast f cs pre p post ∧ f p < Decimal.infinity ∧ i = pre.length := by
  have hv : ∀ q ∈ cs, (f q).isNaN = false := fun q hq => (hs q hq).2
  constructor
  · intro hi
    have hsome : ∃ q ∈ cs, f q < Decimal.infinity := by
      by_contra hno
      rw [(firstBest_eq_none_iff hs).2 fun q hq hlt => hno ⟨q, hq, hlt⟩] at hi
      cases hi
    obtain ⟨q, hq, hlt⟩ := hsome
    obtain ⟨pre, p, post, h⟩ := exists_firstLeast f hv (List.ne_nil_of_mem hq)
    have hp := lt_infinity_of_firstLeast hv h hq hlt
    rw [firstBest_of_firstLeast hs h hp, Option.some.injEq] at hi
    exact ⟨pre, p, post, h, hp, hi.symm⟩
  · rintro ⟨pre, p, post, h, hp, rfl⟩
    exact firstBest_of_firstLeast hs h hp

end Scan

variable [BEq κ] (b : Balancer κ)

/-- Counts in flight below `2^53` compare as the integers they are: the first least of
their doubles is the first of the fewest in flight. -/
theorem firstLeast_inFlight (hbusy : ∀ c ∈ cs, b.inFlight c.name < 2 ^ 53) :
    FirstLeast (fun c => (b.inFlight c.name).toFloat) cs pre p post ↔
      cs = pre ++ p :: post ∧ (∀ q ∈ pre, b.inFlight p.name < b.inFlight q.name) ∧
        ∀ q ∈ post, b.inFlight p.name ≤ b.inFlight q.name := by
  have hW : ∀ q ∈ cs, Decimal.Whole (b.inFlight q.name).toFloat (b.inFlight q.name) :=
    fun q hq => Decimal.Whole.toFloat (hbusy q hq)
  constructor
  · intro h
    refine ⟨h.split, fun q hq => ?_, fun q hq => ?_⟩
    · have hq' := mem_of_split h.split (.inl hq)
      exact_mod_cast (Decimal.Whole.lt_iff (hW p h.mem) (hW q hq')).1 (h.earlier q hq)
    · have hlater := h.later q hq
      rw [Decimal.Whole.lt_iff (hW q (mem_of_split h.split (.inr hq))) (hW p h.mem)] at hlater
      omega
  · rintro ⟨hsplit, hpre, hpost⟩
    have hp : p ∈ cs := by simp [hsplit]
    refine ⟨hsplit, fun q hq => ?_, fun q hq => ?_⟩
    · rw [Decimal.Whole.lt_iff (hW p hp) (hW q (mem_of_split hsplit (.inl hq)))]
      exact_mod_cast hpre q hq
    · rw [Decimal.Whole.lt_iff (hW q (mem_of_split hsplit (.inr hq))) (hW p hp)]
      have := hpost q hq
      omega

theorem inFlight_scores (hbusy : ∀ c ∈ cs, b.inFlight c.name < 2 ^ 53) :
    ∀ q ∈ cs, Primitive.num (b.inFlight q.name).toFloat = .num (b.inFlight q.name).toFloat ∧
      (b.inFlight q.name).toFloat.isNaN = false :=
  fun q hq => ⟨rfl, (Decimal.Whole.toFloat (hbusy q hq)).isNaN⟩

/-- With counts below `2^53`, a candidate of fewest requests in flight is found whenever
there is a candidate. -/
theorem leastBusy_eq_none_iff (hbusy : ∀ c ∈ cs, b.inFlight c.name < 2 ^ 53) :
    b.leastBusy cs = none ↔ cs = [] := by
  rw [leastBusy, firstBest_eq_none_iff (inFlight_scores b hbusy)]
  constructor
  · intro hno
    cases cs with
    | nil => rfl
    | cons c cs =>
      exact absurd (Decimal.Whole.toFloat (hbusy c List.mem_cons_self)).lt_infinity
        (hno c List.mem_cons_self)
  · rintro rfl q hq
    cases hq

/-- With counts below `2^53`, the pick is the first candidate of fewest requests in
flight. -/
theorem leastBusy_eq_some_iff (hbusy : ∀ c ∈ cs, b.inFlight c.name < 2 ^ 53) (i : Nat) :
    b.leastBusy cs = some i ↔ ∃ pre p post, cs = pre ++ p :: post ∧
      (∀ q ∈ pre, b.inFlight p.name < b.inFlight q.name) ∧
      (∀ q ∈ post, b.inFlight p.name ≤ b.inFlight q.name) ∧ i = pre.length := by
  rw [leastBusy, firstBest_eq_some_iff (inFlight_scores b hbusy)]
  constructor
  · rintro ⟨pre, p, post, h, -, rfl⟩
    obtain ⟨hsplit, hpre, hpost⟩ := (firstLeast_inFlight b hbusy).1 h
    exact ⟨pre, p, post, hsplit, hpre, hpost, rfl⟩
  · rintro ⟨pre, p, post, hsplit, hpre, hpost, rfl⟩
    have h := (firstLeast_inFlight b hbusy).2 ⟨hsplit, hpre, hpost⟩
    exact ⟨pre, p, post, h, (Decimal.Whole.toFloat (hbusy p h.mem)).lt_infinity, rfl⟩

/-- Expected latencies that are numbers are the scores the scan for the fastest compares. -/
theorem latency_scores
    (hlat : ∀ c ∈ cs, ∃ x, Primitive.ofOption (b.expectedLatency c) = .num x ∧ x.isNaN = false) :
    ∀ q ∈ cs, Primitive.ofOption (b.expectedLatency q) =
        .num (Primitive.ofOption (b.expectedLatency q)).toNumber ∧
      (Primitive.ofOption (b.expectedLatency q)).toNumber.isNaN = false := by
  intro q hq
  obtain ⟨x, hx, hn⟩ := hlat q hq
  rw [hx]
  exact ⟨rfl, hn⟩

end Balancer

/-- The balancer's picks. Read with exact numbers, on weights cut at zero with a positive
total `W`, a draw `r` in `[0, 1)` picks the first candidate whose running total passes
`r · W`, one of positive weight, so the fallback to the last is never taken; a uniform
draw picks candidate `i` with probability `max 0 wᵢ / W`; with `W = 0` the pick is the
random one. At random, `⌊r · n⌋` names one of the `n` listed items. The fewest in flight
and the least expected latency are the first of least count or latency: found for every
non-empty list of counts below `2^53`, and, of latencies that are numbers, exactly when
one of them is below infinity. -/
theorem balancer_picks_by_share_and_first_least {κ : Type} [BEq κ] (ws : List ℝ)
    (atRandom : ℝ → Option Nat) (r : ℝ) (hr : r ∈ Ico 0 1) (xs : List Json) (hxs : xs ≠ [])
    (hn : xs.length < 2 ^ 53) (b : Balancer κ) (cs : List (Candidate κ))
    (hbusy : ∀ c ∈ cs, b.inFlight c.name < 2 ^ 53)
    (hlat : ∀ c ∈ cs, ∃ x, Primitive.ofOption (b.expectedLatency c) = .num x ∧ x.isNaN = false) :
    (0 < (ws.map (max 0)).sum → ∃ i, byWeight atRandom r (ws.map (max 0)) = some i ∧
      FirstPast (ws.map (max 0)) (r * (ws.map (max 0)).sum) i) ∧
    (0 < (ws.map (max 0)).sum → ∀ i (hi : i < ws.length),
      volume.restrict (Ico 0 1) {s | byWeight atRandom s (ws.map (max 0)) = some i} =
        ENNReal.ofReal (max 0 ws[i] / (ws.map (max 0)).sum)) ∧
    ((ws.map (max 0)).sum = 0 → byWeight atRandom r (ws.map (max 0)) = atRandom r) ∧
    (∃ j, ∃ hj : j < xs.length, ⌊r * xs.length⌋ = j ∧
      ∀ x : Float, Decimal.Whole x j → Script.itemAt (.arr xs) x = some xs[j]) ∧
    (b.leastBusy cs = none ↔ cs = []) ∧
    (∀ i, b.leastBusy cs = some i ↔ ∃ pre p post, cs = pre ++ p :: post ∧
      (∀ q ∈ pre, b.inFlight p.name < b.inFlight q.name) ∧
      (∀ q ∈ post, b.inFlight p.name ≤ b.inFlight q.name) ∧ i = pre.length) ∧
    (b.fastest cs = none ↔
      ∀ c ∈ cs, ¬ (Primitive.ofOption (b.expectedLatency c)).toNumber < Decimal.infinity) ∧
    (∀ i, b.fastest cs = some i ↔ ∃ pre p post,
      Sorting.FirstLeast (fun c => (Primitive.ofOption (b.expectedLatency c)).toNumber)
        cs pre p post ∧
      (Primitive.ofOption (b.expectedLatency p)).toNumber < Decimal.infinity ∧ i = pre.length) := by
  have hw : ∀ w ∈ ws.map (max 0), 0 ≤ w := by
    intro w hw
    obtain ⟨v, -, rfl⟩ := List.mem_map.1 hw
    exact le_max_left 0 v
  refine ⟨fun h => ?_, fun h i hi => ?_, fun h => byWeight_of_sum_nonpos atRandom r h.le,
    itemAt_floor xs hxs hn hr, Balancer.leastBusy_eq_none_iff b hbusy,
    Balancer.leastBusy_eq_some_iff b hbusy,
    Balancer.firstBest_eq_none_iff (Balancer.latency_scores b hlat),
    Balancer.firstBest_eq_some_iff (Balancer.latency_scores b hlat)⟩
  · obtain ⟨i, -, -, hpick⟩ := byWeight_of_sum_pos atRandom hw h hr
    exact ⟨i, hpick, firstPast_of_byWeight atRandom hw h hr hpick⟩
  · have hi' : i < (ws.map (max 0)).length := by rwa [List.length_map]
    rw [volume_byWeight atRandom hw h hi', List.getElem_map]

/-- Weights `1, -2, 3` are cut to `1, 0, 3`: a uniform draw picks the third candidate
with probability `3/4`. -/
theorem third_of_weights_picked_three_quarters :
    (1 / 2 : ℝ) ∈ Ico 0 1 ∧ [Json.null] ≠ [] ∧ [Json.null].length < 2 ^ 53 ∧
      (∀ c ∈ [({ name := "a", weight := 1, avgLatencyMs := some (.num 120) } : Candidate String)],
        ({} : Balancer String).inFlight c.name < 2 ^ 53) ∧
      (∀ c ∈ [({ name := "a", weight := 1, avgLatencyMs := some (.num 120) } : Candidate String)],
        ∃ x, Primitive.ofOption (({} : Balancer String).expectedLatency c) = .num x ∧
          x.isNaN = false) ∧
      volume.restrict (Ico 0 1)
          {s | byWeight (fun _ => none) s (([1, -2, 3] : List ℝ).map (max 0)) = some 2} =
        ENNReal.ofReal (3 / 4) := by
  have hr : (1 / 2 : ℝ) ∈ Ico 0 1 := by norm_num
  have hbusy : ∀ c ∈ [({ name := "a", weight := 1, avgLatencyMs := some (.num 120) } : Candidate String)],
      ({} : Balancer String).inFlight c.name < 2 ^ 53 := by decide
  have hlat : ∀ c ∈ [({ name := "a", weight := 1, avgLatencyMs := some (.num 120) } : Candidate String)],
      ∃ x, Primitive.ofOption (({} : Balancer String).expectedLatency c) = .num x ∧
        x.isNaN = false := fun c hc => by
    rw [List.mem_singleton.1 hc]
    exact ⟨120, rfl, by decide⟩
  have hpos : 0 < (([1, -2, 3] : List ℝ).map (max 0)).sum := by norm_num
  have hpick := (balancer_picks_by_share_and_first_least [1, -2, 3] (fun _ => none) (1 / 2) hr
    [Json.null] (List.cons_ne_nil _ _) (by decide) {} _ hbusy hlat).2.1 hpos 2 (by decide)
  refine ⟨hr, List.cons_ne_nil _ _, by decide, hbusy, hlat, ?_⟩
  rw [hpick]
  norm_num

end LaneGate
