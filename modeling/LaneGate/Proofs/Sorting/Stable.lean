import Mathlib.Data.List.Chain
import Mathlib.Data.List.Nodup
import LaneGate.Proofs.Sorting.Runs
import LaneGate.Proofs.Decimal.Order
/-!
# The sort is a stable merge sort

For a comparison that follows an integer key on the elements sorted, the sort gives
what `List.mergeSort` gives under `keyLE`: the elements ordered by key, equal keys in
their first order (`sort_eq_mergeSort`). For a numeric key with no not-a-number value,
the comparison that subtracts keys follows the rank of doubles (`follows_sub`), so
`sortOn` is the stable sort by the order of the doubles (`sortOn_eq_mergeSort`).

The proof keeps `Sorts` along the cut of the array into runs. A run found at the
cut's position is ascending, and so its own stable sort, or strictly descending, and
then its reverse is its stable sort (`runAt_work`). Binary insertion lengthens a sorted
stretch to the stable sort of the longer stretch, each element going after its equals
(`insertFrom_work`). Pushing a run and collapsing the stack keeps `Sorts`
(`Sorts.cut`), and at the end one run covers the whole array.

The stable sort starts with the first element of least key, followed by the stable
sort of the others (`mergeSort_of_first_least`).
-/

namespace LaneGate.Sorting

variable {α : Type}

/-! ### Stable sorts of sorted pieces -/

section Key

variable (key : α → Int)

theorem mergeSort_of_keySorted {l : List α} (h : KeySorted key l) : l.mergeSort (keyLE key) = l :=
  List.mergeSort_of_pairwise (h.imp fun hab => (keyLE_eq_true key).2 hab)

/-- A sorted front is merged with the stable sort of what follows it. -/
theorem mergeSort_append_of_keySorted {S : List α} (hS : KeySorted key S) (T : List α) :
    (S ++ T).mergeSort (keyLE key) = S.merge (T.mergeSort (keyLE key)) (keyLE key) := by
  rw [mergeSort_append (keyLE key) (keyLE_trans key) (keyLE_total key), mergeSort_of_keySorted key hS]

/-- A list strictly descending by the key has its reverse as its stable sort: the keys
are distinct, so the order by key leaves no choice. -/
theorem mergeSort_eq_reverse {l : List α} (h : l.Pairwise fun a b => key b < key a) :
    l.mergeSort (keyLE key) = l.reverse := by
  have hnd : (l.map key).Nodup := List.pairwise_map.2 (h.imp fun hab => Int.ne_of_gt hab)
  refine @List.Perm.eq_of_pairwise _ (fun a b => keyLE key a b = true) _ _ ?_
    (List.pairwise_mergeSort (keyLE_trans key) (keyLE_total key) l) ?_
    ((List.mergeSort_perm l _).trans (List.reverse_perm l).symm)
  · intro a b ha hb hab hba
    rw [keyLE_eq_true] at hab hba
    exact List.inj_on_of_nodup_map hnd (List.mem_mergeSort.1 ha) (List.mem_reverse.1 hb) (by omega)
  · exact List.pairwise_reverse.2 (h.imp fun hab => (keyLE_eq_true key).2 (Int.le_of_lt hab))

/-- Inserting an element into a sorted list where it goes after its equals is merging
it in. -/
theorem merge_singleton_of_cut {S : List α} {x : α} {k : Nat} (hcut : CutRight key S x k) :
    S.merge [x] (keyLE key) = S.take k ++ x :: S.drop k := by
  rw [merge_trim_front key hcut (by simp)]
  have h := @merge_append_front_right α key [x] (S.drop k) [] (by simpa using hcut.2.2)
  rw [List.append_nil, List.merge_right] at h
  rw [h]
  rfl

/-- The stable sort starts with the first element of least key, followed by the stable
sort of the others. -/
theorem mergeSort_of_first_least {pre post : List α} {p : α} (hpre : ∀ q ∈ pre, key p < key q)
    (hpost : ∀ q ∈ post, key p ≤ key q) :
    (pre ++ p :: post).mergeSort (keyLE key) = p :: (pre ++ post).mergeSort (keyLE key) := by
  have happ := mergeSort_append (keyLE key) (keyLE_trans key) (keyLE_total key)
  have hfirst : (p :: post).mergeSort (keyLE key) = p :: post.mergeSort (keyLE key) := by
    have h := @merge_append_front_left α key [p] [] (post.mergeSort (keyLE key))
      (fun a ha b hb => by
        rw [List.mem_singleton.1 ha]; exact hpost b (List.mem_mergeSort.1 hb))
    rw [List.append_nil, List.nil_merge] at h
    rw [← List.singleton_append, happ, List.mergeSort_singleton, h]
    rfl
  have h := @merge_append_front_right α key [p] (pre.mergeSort (keyLE key)) (post.mergeSort (keyLE key))
    (fun b hb a ha => by rw [List.mem_singleton.1 hb]; exact hpre a (List.mem_mergeSort.1 ha))
  rw [happ, hfirst, ← List.singleton_append, h, ← happ]
  rfl

/-- Every non-empty list has a first element of least key. -/
theorem exists_first_least : ∀ xs : List α, xs ≠ [] →
    ∃ pre p post, xs = pre ++ p :: post ∧ (∀ q ∈ pre, key p < key q) ∧ (∀ q ∈ post, key p ≤ key q)
  | [], h => absurd rfl h
  | [x], _ => ⟨[], x, [], rfl, nofun, nofun⟩
  | x :: y :: ys, _ => by
    obtain ⟨pre, p, post, hxs, hpre, hpost⟩ := exists_first_least (y :: ys) (List.cons_ne_nil y ys)
    by_cases hx : key x ≤ key p
    · -- the head is least: everything after it is at least as large
      refine ⟨[], x, y :: ys, rfl, nofun, fun q hq => ?_⟩
      rw [hxs, List.mem_append, List.mem_cons] at hq
      rcases hq with hq | rfl | hq
      · exact Int.le_of_lt (Int.lt_of_le_of_lt hx (hpre q hq))
      · exact hx
      · exact Int.le_trans hx (hpost q hq)
    · refine ⟨x :: pre, p, post, by rw [hxs]; rfl, fun q hq => ?_, hpost⟩
      rcases List.mem_cons.1 hq with rfl | hq
      · omega
      · exact hpre q hq

end Key

/-! ### Finding and lengthening a run -/

namespace Sorter

variable (cmp : α → α → Float) (d : α)

/-- Every element the run's extension passes over is before the bound and steps the
way the run's first two elements do. -/
theorem extend_steps (s : Sorter α) (high : Nat) (descending : Bool) (idx len fuel : Nat) :
    ∀ j, idx ≤ j → j < idx + (runAt.extend cmp d s high descending idx len fuel - len) →
      j < high ∧ before cmp (get d s.work j) (get d s.work (j - 1)) = descending := by
  induction fuel generalizing idx len with
  | zero =>
    intro j h1 h2
    rw [runAt.extend] at h2
    omega
  | succ fuel ih =>
    intro j h1 h2
    rw [runAt.extend] at h2
    split at h2
    · next hidx =>
      dsimp only at h2
      split at h2
      · next heq =>
        have hge := le_extend cmp d s high descending (idx + 1) (len + 1) fuel
        rcases Nat.eq_or_lt_of_le h1 with rfl | hlt
        · exact ⟨hidx, by simpa using heq⟩
        · exact ih (idx + 1) (len + 1) j hlt (by omega)
      · omega
    · omega

theorem runs_insertFrom (s : Sorter α) (low start high : Nat) :
    (s.insertFrom cmp d low start high).runs = s.runs := by
  induction s, start using Sorter.insertFrom.induct cmp d low high with
  | case1 s start hs pivot left moved ih =>
    rw [Sorter.insertFrom, if_pos hs]
    exact ih
  | case2 s start hs =>
    rw [Sorter.insertFrom, if_neg hs]

variable (key : α → Int) {ok : α → Prop} (hcmp : Follows cmp key ok)
include hcmp

/-- The run found at `low` is a stretch of one to `high - low` elements, left as its
stable sort: an ascending run already is, and a strictly descending one is reversed in
place. -/
theorem runAt_work (s : Sorter α) {low high : Nat} (hlh : low < high) (hh : high ≤ s.work.size)
    (hok : ∀ x ∈ s.work.toList, ok x) :
    (s.runAt cmp d low high).1.work.toList = s.work.toList.take low ++
        (slice s.work low (s.runAt cmp d low high).2).mergeSort (keyLE key) ++
        s.work.toList.drop (low + (s.runAt cmp d low high).2) ∧
      (s.runAt cmp d low high).1.runs = s.runs ∧
      1 ≤ (s.runAt cmp d low high).2 ∧ (s.runAt cmp d low high).2 ≤ high - low := by
  unfold Sorter.runAt
  split
  · -- a single element is a run
    dsimp only
    refine ⟨?_, rfl, Nat.le_refl 1, by omega⟩
    rw [mergeSort_of_keySorted key (by
      rw [show 1 = 0 + 1 from rfl, slice_succ d _ _ _ (by omega), slice_zero]
      exact List.pairwise_singleton _ _)]
    exact toList_eq_around s.work low 1
  dsimp only
  have hsteps := extend_steps cmp d s high (before cmp (get d s.work (low + 1)) (get d s.work low))
    (low + 2) 2 (high - low)
  have hle := extend_le cmp d s high (before cmp (get d s.work (low + 1)) (get d s.work low))
    (low + 2) 2 (high - low)
  have hge := le_extend cmp d s high (before cmp (get d s.work (low + 1)) (get d s.work low))
    (low + 2) 2 (high - low)
  generalize hdesc : before cmp (get d s.work (low + 1)) (get d s.work low) = descending
    at hsteps hle hge ⊢
  generalize runAt.extend cmp d s high descending (low + 2) 2 (high - low) = len at hsteps hle hge ⊢
  have hfit : low + len ≤ s.work.size := by omega
  have hlen : (slice s.work low len).length = len := length_slice s.work low len hfit
  -- every step of the run goes the way of its first
  have hstep : ∀ i (hi : i + 1 < (slice s.work low len).length),
      before cmp (slice s.work low len)[i + 1] (slice s.work low len)[i] = descending := by
    intro i hi
    rw [← get_eq_slice d s.work hfit hi, ← get_eq_slice d s.work hfit (by omega)]
    rcases Nat.eq_zero_or_pos i with rfl | hpos
    · simpa using hdesc
    · have := (hsteps (low + (i + 1)) (by omega) (by omega)).2
      rwa [show low + (i + 1) - 1 = low + i by omega] at this
  have hokS : ∀ i (hi : i < (slice s.work low len).length), ok (slice s.work low len)[i] :=
    fun i hi => hok _ (mem_of_mem_slice (List.getElem_mem hi))
  cases descending with
  | false =>
    rw [if_neg Bool.false_ne_true]
    dsimp only
    have hsorted : KeySorted key (slice s.work low len) := by
      have hc : List.IsChain (· ≤ ·) ((slice s.work low len).map key) := by
        rw [List.isChain_iff_getElem]
        intro i hi
        simp only [List.length_map] at hi
        have h := hstep i hi
        rw [hcmp _ _ (hokS _ _) (hokS _ _), decide_eq_false_iff_not] at h
        simp only [List.getElem_map]
        omega
      exact List.pairwise_map.1 (List.isChain_iff_pairwise.1 hc)
    refine ⟨?_, rfl, by omega, by omega⟩
    rw [mergeSort_of_keySorted key hsorted]
    exact toList_eq_around s.work low len
  | true =>
    rw [if_pos rfl]
    dsimp only
    have hdec : (slice s.work low len).Pairwise fun a b => key b < key a := by
      have hc : List.IsChain (· > ·) ((slice s.work low len).map key) := by
        rw [List.isChain_iff_getElem]
        intro i hi
        simp only [List.length_map] at hi
        have h := hstep i hi
        rw [hcmp _ _ (hokS _ _) (hokS _ _), decide_eq_true_iff] at h
        simp only [List.getElem_map]
        exact h
      exact List.pairwise_map.1 (List.isChain_iff_pairwise.1 hc)
    refine ⟨?_, rfl, by omega, by omega⟩
    rw [mergeSort_eq_reverse key hdec,
      writeFrom_toList _ _ _ (by rw [List.length_reverse, hlen]; exact hfit), List.length_reverse, hlen]

/-- Binary insertion of the elements from `start` to `high` after a sorted stretch from
`low` leaves the stable sort of the whole stretch: each element is rotated into place
after its equals. The induction follows the insertions; each merges one element into
the sorted front, and the stable sort of the whole stretch merges that front with the
rest. -/
theorem insertFrom_work (s : Sorter α) {low start high : Nat} (hls : low ≤ start) (hsh : start ≤ high)
    (hh : high ≤ s.work.size) (hsorted : KeySorted key (slice s.work low (start - low)))
    (hok : ∀ x ∈ s.work.toList, ok x) :
    (s.insertFrom cmp d low start high).work.toList = s.work.toList.take low ++
      (slice s.work low (high - low)).mergeSort (keyLE key) ++ s.work.toList.drop high := by
  induction s, start using Sorter.insertFrom.induct cmp d low high with
  | case1 s start hs pivot left moved ih =>
    rw [Sorter.insertFrom, if_pos hs]
    have hS := length_slice s.work low (start - low) (by omega)
    have hp : slice s.work start 1 = [pivot] := by
      rw [show 1 = 0 + 1 from rfl, slice_succ d _ _ _ (by omega), slice_zero]
    have hwhole : slice s.work low (high - low) =
        slice s.work low (start - low) ++ [pivot] ++ slice s.work (start + 1) (high - start - 1) := by
      have h1 := slice_append s.work low (start - low) 1
      have h2 := slice_append s.work low (start - low + 1) (high - start - 1)
      rw [show low + (start - low) = start by omega, hp] at h1
      rw [show low + (start - low + 1) = start + 1 by omega,
        show start - low + 1 + (high - start - 1) = high - low by omega] at h2
      rw [h1, h2]
    have hcut : CutRight key (slice s.work low (start - low)) pivot left :=
      searchRight_cut cmp d key hcmp s.work pivot (by omega) hsorted
        (hok _ (mem_of_mem_slice (show pivot ∈ slice s.work start 1 by rw [hp]; simp)))
        fun y hy => hok y (mem_of_mem_slice hy)
    have hleft : left ≤ start - low := by have := hcut.1; rwa [hS] at this
    have hmoved : moved = pivot :: (slice s.work low (start - low)).drop left := by
      simp only [moved, slice_drop]
    have hlenm : low + left + moved.length = start + 1 := by
      rw [hmoved, List.length_cons, List.length_drop, hS]; omega
    have hfits : low + left + moved.length ≤ s.work.size := by omega
    have hM : (slice s.work low (start - low)).merge [pivot] (keyLE key) =
        (slice s.work low (start - low) ++ [pivot]).mergeSort (keyLE key) :=
      by rw [mergeSort_append_of_keySorted key hsorted [pivot], List.mergeSort_singleton]
    have hT : s.work.toList.drop (start + 1) =
        slice s.work (start + 1) (high - start - 1) ++ s.work.toList.drop high := by
      rw [drop_eq_slice_append s.work (start + 1) (high - start - 1),
        show start + 1 + (high - start - 1) = high by omega]
    have hinserted : (writeFrom s.work (low + left) moved).toList = s.work.toList.take low ++
        (slice s.work low (start - low)).merge [pivot] (keyLE key) ++ s.work.toList.drop (start + 1) := by
      rw [writeFrom_toList s.work (low + left) moved hfits, hlenm, merge_singleton_of_cut key hcut,
        hmoved, List.take_add, slice_take _ _ _ _ hleft, slice_eq, slice_eq]
      simp only [List.append_assoc, List.cons_append]
    have hlow : (s.work.toList.take low).length = low := by simp; omega
    have hlenM : ((slice s.work low (start - low)).merge [pivot] (keyLE key)).length = start + 1 - low := by
      rw [List.length_merge, hS, List.length_singleton]; omega
    have hlenT : (slice s.work (start + 1) (high - start - 1)).length = high - start - 1 :=
      length_slice _ _ _ (by omega)
    obtain ⟨-, hfront', -⟩ := views_of_toList_eq (R := s.work.toList.drop (start + 1))
      (by rw [hinserted])
    obtain ⟨htake', hstretch', hdrop'⟩ := views_of_toList_eq (P := s.work.toList.take low)
      (X := (slice s.work low (start - low)).merge [pivot] (keyLE key) ++
        slice s.work (start + 1) (high - start - 1)) (R := s.work.toList.drop high)
      (by rw [hinserted, hT]; simp only [List.append_assoc])
    rw [hlow, hlenM] at hfront'
    rw [hlow] at htake'
    rw [hlow, List.length_append, hlenM, hlenT, show start + 1 - low + (high - start - 1) = high - low by omega]
      at hstretch'
    rw [hlow, List.length_append, hlenM, hlenT, show low + (start + 1 - low + (high - start - 1)) = high by omega]
      at hdrop'
    have hsorted' : KeySorted key (slice (writeFrom s.work (low + left) moved) low (start + 1 - low)) := by
      rw [hfront', hM]
      exact keySorted_mergeSort key _
    have hok' : ∀ x ∈ (writeFrom s.work (low + left) moved).toList, ok x := by
      intro x hx
      rw [hinserted] at hx
      simp only [List.mem_append, List.mem_merge, List.mem_singleton] at hx
      rcases hx with (hx | hx | rfl) | hx
      · exact hok x (List.mem_of_mem_take hx)
      · exact hok x (mem_of_mem_slice hx)
      · exact hok _ (mem_of_mem_slice (show pivot ∈ slice s.work start 1 by rw [hp]; simp))
      · exact hok x (List.mem_of_mem_drop hx)
    have hrun := ih (by omega) (by omega) (by rw [size_writeFrom]; exact hh) hsorted' hok'
    dsimp only at hrun
    rw [hrun, htake', hstretch', hdrop', hwhole, hM,
      mergeSort_append (keyLE key) (keyLE_trans key) (keyLE_total key) _ (slice s.work (start + 1) _),
      mergeSort_append (keyLE key) (keyLE_trans key) (keyLE_total key) (_ ++ [pivot]),
      mergeSort_of_keySorted key (keySorted_mergeSort key _)]
  | case2 s start hs =>
    rw [Sorter.insertFrom, if_neg hs]
    obtain rfl : start = high := by omega
    rw [mergeSort_of_keySorted key hsorted]
    calc s.work.toList
        = s.work.toList.take low ++ slice s.work low (start - low) ++
            s.work.toList.drop (low + (start - low)) := toList_eq_around s.work low (start - low)
      _ = _ := by rw [show low + (start - low) = start by omega]

/-! ### Cutting the array into runs -/

variable {o : Array α}

/-- The run found where the stack ends is the stable sort of what `o` held there. -/
theorem Sorts.runAt_work {s : Sorter α} {low high : Nat} (h : s.Sorts key o low) (hlh : low < high)
    (hh : high ≤ o.size) (hok : ∀ x ∈ o.toList, ok x) :
    (s.runAt cmp d low high).1.work.toList = sortedRuns key o s.runs.toList ++
        (slice o low (s.runAt cmp d low high).2).mergeSort (keyLE key) ++
        o.toList.drop (low + (s.runAt cmp d low high).2) ∧
      (s.runAt cmp d low high).1.runs = s.runs ∧
      1 ≤ (s.runAt cmp d low high).2 ∧ (s.runAt cmp d low high).2 ≤ high - low := by
  have hF : (sortedRuns key o s.runs.toList).length = low := by
    rw [length_sortedRuns h.chain h.fits, Nat.sub_zero]
  have htake : s.work.toList.take low = sortedRuns key o s.runs.toList := by
    rw [h.work]; exact List.take_left' hF
  have hdrop : s.work.toList.drop low = o.toList.drop low := by
    rw [h.work]; exact List.drop_left' hF
  obtain ⟨hw, hruns, h1, h2⟩ := Sorter.runAt_work cmp d key hcmp s hlh (by rw [h.size_eq]; exact hh)
    fun x hx => hok x (h.mem hx)
  refine ⟨?_, hruns, h1, h2⟩
  rw [hw, htake, slice_eq, slice_eq, hdrop, ← List.drop_drop, hdrop, List.drop_drop]

/-- Binary insertion lengthens a sorted run at the end of the stack to the stable sort
of the longer stretch of `o`. -/
theorem insertFrom_lengthens {s : Sorter α} {F : List α} {low len m : Nat}
    (hw : s.work.toList = F ++ (slice o low len).mergeSort (keyLE key) ++ o.toList.drop (low + len))
    (hF : F.length = low) (hlen : len ≤ m) (hm : low + m ≤ o.size) (hok : ∀ x ∈ s.work.toList, ok x) :
    (s.insertFrom cmp d low (low + len) (low + m)).work.toList =
      F ++ (slice o low m).mergeSort (keyLE key) ++ o.toList.drop (low + m) := by
  have hX : ((slice o low len).mergeSort (keyLE key)).length = len := by
    rw [List.length_mergeSort, length_slice _ _ _ (by omega)]
  have hT : (slice o (low + len) (m - len)).length = m - len := length_slice _ _ _ (by omega)
  obtain ⟨htake, hrun, -⟩ := views_of_toList_eq hw
  obtain ⟨-, hstretch, hdrop⟩ := views_of_toList_eq (P := F)
    (X := (slice o low len).mergeSort (keyLE key) ++ slice o (low + len) (m - len))
    (R := o.toList.drop (low + m)) (by
      rw [hw, drop_eq_slice_append o (low + len) (m - len), show low + len + (m - len) = low + m by omega]
      simp only [List.append_assoc])
  rw [hF] at htake hrun hstretch hdrop
  rw [hX] at hrun
  rw [List.length_append, hX, hT, show len + (m - len) = m by omega] at hstretch hdrop
  have hsize : s.work.size = o.size := by
    rw [← Array.length_toList, hw, List.length_append, List.length_append, hF, hX, List.length_drop,
      Array.length_toList]
    omega
  rw [insertFrom_work cmp d key hcmp s (by omega) (by omega) (by omega)
    (by rw [show low + len - low = len by omega, hrun]; exact keySorted_mergeSort key _) hok,
    show low + m - low = m by omega, htake, hstretch, hdrop,
    mergeSort_append_of_keySorted key (keySorted_mergeSort key _),
    ← mergeSort_append (keyLE key) (keyLE_trans key) (keyLE_total key), slice_append,
    show len + (m - len) = m by omega]

/-- Cutting the array into runs, with fuel for each element, keeps the stack sorted and
covers the whole array: each run found, and lengthened by insertion, is the stable sort
of what `o` held there, and is pushed on a stack that reaches exactly to it. -/
theorem Sorts.cut (minRun fuel : Nat) {s : Sorter α} {low remaining : Nat} (h : s.Sorts key o low)
    (hok : ∀ x ∈ o.toList, ok x) (hr : low + remaining = o.size) (hfuel : remaining ≤ fuel) :
    (cut cmp d minRun fuel s low remaining).Sorts key o o.size := by
  induction fuel, s, low, remaining using Sorter.cut.induct cmp d minRun with
  | case1 s low remaining =>
    rw [Sorter.cut]
    rwa [← hr, show remaining = 0 by omega, Nat.add_zero]
  | case2 fuel s low remaining hz =>
    rw [Sorter.cut, if_pos hz]
    simp only [beq_iff_eq] at hz
    rwa [← hr, hz, Nat.add_zero]
  | case3 fuel s low remaining hz s₁ len hrun s₂ len₁ hins s₃ s₄ ih =>
    simp only [beq_iff_eq] at hz
    have hF : (sortedRuns key o s.runs.toList).length = low := by
      rw [length_sortedRuns h.chain h.fits, Nat.sub_zero]
    obtain ⟨hw₁, hruns₁, hlen, hlen'⟩ := h.runAt_work cmp d key hcmp (by omega) (Nat.le_of_eq hr) hok
    rw [hrun] at hw₁ hruns₁ hlen hlen'
    simp only at hw₁ hruns₁ hlen hlen'
    have h₂ : s₂.work.toList = sortedRuns key o s.runs.toList ++
        (slice o low len₁).mergeSort (keyLE key) ++ o.toList.drop (low + len₁) ∧
        s₂.runs = s.runs ∧ 1 ≤ len₁ ∧ len₁ ≤ remaining := by
      have hok₁ : ∀ x ∈ s₁.work.toList, ok x := by
        intro x hx
        rw [hw₁, List.mem_append, List.mem_append, List.mem_mergeSort] at hx
        rcases hx with (hx | hx) | hx
        · exact hok x (mem_of_mem_sortedRuns hx)
        · exact hok x (mem_of_mem_slice hx)
        · exact hok x (List.mem_of_mem_drop hx)
      split at hins
      · obtain ⟨rfl, rfl⟩ := Prod.mk.inj hins
        rw [if_neg (by simp only [beq_iff_eq]; omega)]
        exact ⟨insertFrom_lengthens cmp d key hcmp hw₁ hF (by omega) (by omega) hok₁,
          by rw [runs_insertFrom, hruns₁], by omega, by omega⟩
      · obtain ⟨rfl, rfl⟩ := Prod.mk.inj hins
        exact ⟨hw₁, hruns₁, hlen, by omega⟩
    obtain ⟨hw₂, hruns₂, hl₁, hl₁'⟩ := h₂
    have h₃ : s₃.Sorts key o (low + len₁) := by
      refine ⟨?_, by omega, ?_, ?_⟩
      · simp only [s₃, Array.toList_push, hruns₂]
        exact chain_append.2 ⟨low, h.chain, rfl, rfl⟩
      · simp only [s₃, Array.toList_push, hruns₂, List.mem_append, List.mem_singleton]
        rintro r (hr' | rfl)
        · exact h.nonempty r hr'
        · exact hl₁
      · simp only [s₃, Array.toList_push, hruns₂, sortedRuns_append, sortedRuns_cons, sortedRuns_nil,
          List.append_nil]
        exact hw₂
    have h₄ : s₄.Sorts key o (low + len₁) := h₃.collapse cmp d hcmp hok _
    rw [Sorter.cut, if_neg (by simpa using hz), hrun]
    simp only [hins]
    exact ih h₄ (by omega) (by omega)

end Sorter

section Whole

variable (cmp : α → α → Float) (d : α) (key : α → Int) {ok : α → Prop} (hcmp : Follows cmp key ok)
include hcmp

/-- Sorting an array by a comparison that follows a key on its elements gives their
stable sort by the key. -/
theorem sortArray_eq_mergeSort (a : Array α) (hok : ∀ x ∈ a.toList, ok x) :
    (sortArray cmp d a).toList = a.toList.mergeSort (keyLE key) := by
  unfold sortArray
  split
  · -- fewer than two elements are in order as they stand
    next hsmall =>
    refine (mergeSort_of_keySorted key ?_).symm
    match a, hsmall with
    | ⟨[]⟩, _ => exact List.Pairwise.nil
    | ⟨[_]⟩, _ => exact List.pairwise_singleton _ _
  · next hbig =>
    dsimp only
    have h₀ : Sorter.Sorts key a 0 { work := a } := ⟨rfl, Nat.zero_le _, nofun, by simp⟩
    have h₁ := h₀.cut cmp d key hcmp (minRunLength a.size) a.size hok (Nat.zero_add _) (Nat.le_refl _)
    generalize Sorter.cut cmp d (minRunLength a.size) a.size { work := a } 0 a.size = s at h₁
    have h₂ := h₁.forceCollapse cmp d hcmp hok (s.runs.size + 1)
    have hone := size_runs_forceCollapse cmp d (s.runs.size + 1) s (by omega)
    generalize Sorter.forceCollapse cmp d (s.runs.size + 1) s = t at h₂ hone
    have hwork := h₂.work
    have hchain := h₂.chain
    rw [← Array.length_toList] at hone
    match hr : t.runs.toList, hone with
    | [], _ =>
      rw [hr] at hchain
      have h0 : 0 = a.size := hchain
      have hnil : a.toList = [] := List.eq_nil_of_length_eq_zero (by simp; omega)
      rw [hwork, hr, sortedRuns_nil, List.nil_append, hnil, List.drop_nil, List.mergeSort_nil]
    | [r], _ =>
      rw [hr] at hchain
      obtain ⟨hr1, hr2⟩ := hchain
      have hr2' : r.2 = a.size := by have h2 : 0 + r.2 = a.size := hr2; omega
      rw [hwork, hr, sortedRuns_cons, sortedRuns_nil, List.append_nil, hr1, hr2', slice_eq,
        List.drop_zero, List.take_of_length_le (by simp), List.drop_of_length_le (by simp),
        List.append_nil]

/-- Sorting a list by a comparison that follows a key on its elements gives their stable
sort by the key. -/
theorem sort_eq_mergeSort (xs : List α) (hok : ∀ x ∈ xs, ok x) :
    sort cmp xs = xs.mergeSort (keyLE key) := by
  cases xs with
  | nil => simp [sort]
  | cons x xs =>
    simpa [sort] using sortArray_eq_mergeSort cmp x key hcmp (x :: xs).toArray (by simpa using hok)

end Whole

/-- Subtracting numeric keys compares by the order of the doubles, on elements whose
key is a number. -/
theorem follows_sub (key : α → Float) :
    Follows (fun a b => key a - key b) (fun x => Decimal.rank (key x)) fun x => (key x).isNaN = false := by
  intro u v hu hv
  exact decide_eq_decide.2 ((Decimal.sub_lt_zero_iff hu hv).trans (Decimal.lt_iff_rank_lt hu hv))

/-- Sorting by a numeric key with no not-a-number value is the stable sort by the order
of the doubles: an element goes before another exactly when its key is smaller, and
elements with equal keys keep their order. -/
theorem sortOn_eq_mergeSort (key : α → Float) (xs : List α) (h : ∀ x ∈ xs, (key x).isNaN = false) :
    sortOn key xs = xs.mergeSort (keyLE fun x => Decimal.rank (key x)) :=
  sort_eq_mergeSort _ _ (follows_sub key) xs h

end LaneGate.Sorting
