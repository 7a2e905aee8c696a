import LaneGate.Proofs.Sorting.MergeBack
/-!
# The stack of sorted runs

A sort in progress keeps its stack of runs sorted (`Sorts`): the runs follow one
another from the start of the array, each holds the stable sort (`List.mergeSort`
by `keyLE`) of what the original array held there, and past the runs the array is
still the original.

Merging two neighbouring runs keeps this (`Sorts.mergeAt`). The first gallop cuts off
the first run's front that goes before the whole second run, the second gallop the
second run's back that goes after the whole first run (`merge_trim_front`,
`merge_trim_back`), and the merge of what is left, from the front or from the back,
writes the merge of the two runs in place (`mergeAt_work`); the merge of the stable
sorts of two neighbouring stretches is the stable sort of both (`mergeSort_append`).
Collapsing the stack, in part or in whole, keeps `Sorts`, and collapsing it in whole
leaves at most one run (`size_runs_forceCollapse`).
-/

namespace LaneGate.Sorting

variable {α : Type}

/-! ### Trimming a merge -/

section Trim

variable (key : α → Int)

/-- The first side's front that goes before the whole second side stays in front. -/
theorem merge_trim_front {A B : List α} {x : α} {k : Nat} (hcut : CutRight key A x k)
    (hx : ∀ b ∈ B, key x ≤ key b) :
    A.merge B (keyLE key) = A.take k ++ (A.drop k).merge B (keyLE key) := by
  have h := @merge_append_front_left α key (A.take k) (A.drop k) B
    fun a ha b hb => Int.le_trans (hcut.2.1 a ha) (hx b hb)
  rwa [List.take_append_drop] at h

/-- The second side's back that goes after the whole first side stays at the back. -/
theorem merge_trim_back {A B : List α} {y : α} {m : Nat} (hcut : CutLeft key B y m)
    (hy : ∀ a ∈ A, key a ≤ key y) :
    A.merge B (keyLE key) = A.merge (B.take m) (keyLE key) ++ B.drop m := by
  have h := @merge_append_back_right α key A (B.take m) (B.drop m)
    fun a ha b hb => Int.le_trans (hy a ha) (hcut.2.2 b hb)
  rwa [List.take_append_drop] at h

end Trim

/-! ### Views of an array -/

/-- An array is what lies before a stretch, the stretch, and what lies after it. -/
theorem toList_eq_around (a : Array α) (start count : Nat) :
    a.toList = a.toList.take start ++ slice a start count ++ a.toList.drop (start + count) := by
  rw [List.append_assoc, ← drop_eq_slice_append, List.take_append_drop]

/-- An array made of three parts one after another gives each back as its view. -/
theorem views_of_toList_eq {a : Array α} {P X R : List α} (h : a.toList = P ++ X ++ R) :
    a.toList.take P.length = P ∧ slice a P.length X.length = X ∧
      a.toList.drop (P.length + X.length) = R := by
  refine ⟨?_, ?_, ?_⟩
  · rw [h, List.append_assoc, List.take_left]
  · rw [slice_eq, h, List.append_assoc, List.drop_left, List.take_left]
  · rw [h, ← List.length_append, List.drop_left]

theorem mem_of_mem_slice {a : Array α} {start count : Nat} {x : α} (h : x ∈ slice a start count) :
    x ∈ a.toList := by
  rw [slice_eq] at h
  exact List.mem_of_mem_drop (List.mem_of_mem_take h)

/-! ### Sorted runs -/

/-- What the runs hold when each holds the stable sort of what the array `o` held
there, one after another. -/
def sortedRuns (key : α → Int) (o : Array α) (runs : List (Nat × Nat)) : List α :=
  runs.flatMap fun r => (slice o r.1 r.2).mergeSort (keyLE key)

section SortedRuns

variable {key : α → Int} {o : Array α}

@[simp] theorem sortedRuns_nil : sortedRuns key o [] = [] := rfl

theorem sortedRuns_cons (r : Nat × Nat) (rs : List (Nat × Nat)) :
    sortedRuns key o (r :: rs) = (slice o r.1 r.2).mergeSort (keyLE key) ++ sortedRuns key o rs :=
  List.flatMap_cons

theorem sortedRuns_append (rs ts : List (Nat × Nat)) :
    sortedRuns key o (rs ++ ts) = sortedRuns key o rs ++ sortedRuns key o ts :=
  List.flatMap_append

/-- Sorted runs that follow one another inside the array are as long as the stretch
they cover. -/
theorem length_sortedRuns {start stop : Nat} {runs : List (Nat × Nat)} (h : Chain start runs stop)
    (hfit : stop ≤ o.size) : (sortedRuns key o runs).length = stop - start := by
  induction runs generalizing start with
  | nil =>
    have hs : start = stop := h
    simp [hs]
  | cons r rs ih =>
    obtain ⟨hr, hrs⟩ := h
    have hle := hrs.le
    rw [sortedRuns_cons, List.length_append, List.length_mergeSort, length_slice _ _ _ (by omega),
      ih hrs]
    omega

theorem mem_of_mem_sortedRuns {runs : List (Nat × Nat)} {x : α} (h : x ∈ sortedRuns key o runs) :
    x ∈ o.toList := by
  obtain ⟨r, -, hr⟩ := List.mem_flatMap.1 h
  exact mem_of_mem_slice (List.mem_mergeSort.1 hr)

end SortedRuns

/-! ### The stack -/

section Merge

variable (cmp : α → α → Float) (d : α)

/-- Merging two runs replaces them by one on the stack, whatever the merge writes. -/
theorem runs_mergeAt (s : Sorter α) (i : Nat) {bA lA bB lB : Nat}
    (hA : s.runs.getD i (0, 0) = (bA, lA)) (hB : s.runs.getD (i + 1) (0, 0) = (bB, lB)) :
    (s.mergeAt cmp d i).runs = mergedRuns s.runs i (bA, lA + lB) := by
  unfold Sorter.mergeAt
  simp only [hA, hB]
  split
  · rfl
  split
  · rfl
  · rfl

theorem size_runs_mergeAt (s : Sorter α) (i : Nat) :
    (s.mergeAt cmp d i).runs.size = s.runs.size - 1 := by
  rcases hA : s.runs.getD i (0, 0) with ⟨bA, lA⟩
  rcases hB : s.runs.getD (i + 1) (0, 0) with ⟨bB, lB⟩
  rw [runs_mergeAt cmp d s i hA hB, size_mergedRuns]

/-- Collapsing the whole stack with fuel for each of its runs leaves at most one: each
merge takes one run off. -/
theorem size_runs_forceCollapse (fuel : Nat) (s : Sorter α) (h : s.runs.size ≤ fuel + 1) :
    (Sorter.forceCollapse cmp d fuel s).runs.size ≤ 1 := by
  induction fuel generalizing s with
  | zero =>
    rw [Sorter.forceCollapse]
    omega
  | succ fuel ih =>
    rw [Sorter.forceCollapse]
    dsimp only
    split
    · exact ih _ (by rw [size_runs_mergeAt]; omega)
    · omega

variable (key : α → Int) {ok : α → Prop} (hcmp : Follows cmp key ok)
include hcmp

/-- Merging the runs at places `i` and `i + 1` of the stack writes the merge of the two
sorted stretches in place. What the trimming gallops cut off stays where it is; what
is left is merged from the front or from the back, or is already in order when one
side is used up. -/
theorem mergeAt_work (s : Sorter α) (i : Nat) {bA lA bB lB : Nat}
    (hA : s.runs.getD i (0, 0) = (bA, lA)) (hB : s.runs.getD (i + 1) (0, 0) = (bB, lB))
    (hAB : bB = bA + lA) (hfit : bB + lB ≤ s.work.size) (hA1 : 0 < lA) (hB1 : 0 < lB)
    (hsA : KeySorted key (slice s.work bA lA)) (hsB : KeySorted key (slice s.work bB lB))
    (hok : ∀ x ∈ s.work.toList, ok x) :
    (s.mergeAt cmp d i).work.toList = s.work.toList.take bA ++
      (slice s.work bA lA).merge (slice s.work bB lB) (keyLE key) ++
        s.work.toList.drop (bB + lB) := by
  have hokS : ∀ {st c : Nat}, ∀ y ∈ slice s.work st c, ok y := fun y hy => hok y (mem_of_mem_slice hy)
  have hBx : slice s.work bB lB = get d s.work bB :: slice s.work (bB + 1) (lB - 1) := by
    rw [← slice_succ d _ _ _ (by omega), Nat.sub_add_cancel hB1]
  have hAy := slice_eq_append_last d s.work bA lA hA1 (by omega)
  have hxB : ∀ b ∈ slice s.work bB lB, key (get d s.work bB) ≤ key b := by
    have hs := hsB
    rw [hBx] at hs ⊢
    exact hs.head_le
  have hAy' : ∀ a ∈ slice s.work bA lA, key a ≤ key (get d s.work (bA + lA - 1)) := by
    have hs := hsA
    rw [hAy] at hs ⊢
    exact hs.le_last
  have hokx : ok (get d s.work bB) := hokS _ (by rw [hBx]; exact List.mem_cons_self)
  have hoky : ok (get d s.work (bA + lA - 1)) := hokS _ (by rw [hAy]; simp)
  have hWAB : s.work.toList = s.work.toList.take bA ++
      (slice s.work bA lA ++ slice s.work bB lB) ++ s.work.toList.drop (bB + lB) := by
    rw [hAB, slice_append, Nat.add_assoc]
    exact toList_eq_around s.work bA (lA + lB)
  unfold Sorter.mergeAt
  simp only [hA, hB]
  have hcutA : CutRight key (slice s.work bA lA) (get d s.work bB)
      (gallopRight cmp d s.work (get d s.work bB) bA lA 0) :=
    gallopRight_cut cmp d key hcmp s.work (get d s.work bB) 0 (by omega) hsA hA1 hokx hokS
  generalize gallopRight cmp d s.work (get d s.work bB) bA lA 0 = k at hcutA ⊢
  have hk : k ≤ lA := by have := hcutA.1; rwa [length_slice _ _ _ (by omega)] at this
  have hfront := merge_trim_front key hcutA hxB
  split
  · -- the first run goes wholly before the second: already in order
    next hk0 =>
    simp only [beq_iff_eq] at hk0
    rw [hfront, List.take_of_length_le (l := slice s.work bA lA) (by rw [length_slice _ _ _ (by omega)]; omega),
      List.drop_of_length_le (l := slice s.work bA lA) (by rw [length_slice _ _ _ (by omega)]; omega),
      List.nil_merge]
    exact hWAB
  next hk0 =>
  simp only [beq_iff_eq] at hk0
  rw [show bA + k + (lA - k) - 1 = bA + lA - 1 by omega]
  have hcutB : CutLeft key (slice s.work bB lB) (get d s.work (bA + lA - 1))
      (gallopLeft cmp d s.work (get d s.work (bA + lA - 1)) bB lB (lB - 1)) :=
    gallopLeft_cut cmp d key hcmp s.work _ (lB - 1) (by omega) hsB (by omega) hoky hokS
  generalize gallopLeft cmp d s.work (get d s.work (bA + lA - 1)) bB lB (lB - 1) = m at hcutB ⊢
  have hm : m ≤ lB := by have := hcutB.1; rwa [length_slice _ _ _ (by omega)] at this
  have hback := merge_trim_back key (A := (slice s.work bA lA).drop k) hcutB
    fun a ha => hAy' a (List.mem_of_mem_drop ha)
  split
  · -- the second run goes wholly after what is left of the first: already in order
    next hm0 =>
    simp only [beq_iff_eq] at hm0
    rw [hfront, hback, hm0, List.take_zero, List.drop_zero, List.merge_right,
      ← List.append_assoc (List.take k _), List.take_append_drop]
    exact hWAB
  next hm0 =>
  simp only [beq_iff_eq] at hm0
  have hA' : slice s.work (bA + k) (lA - k) = (slice s.work bA lA).drop k := (slice_drop ..).symm
  have hB' : slice s.work bB m = (slice s.work bB lB).take m := (slice_take _ _ _ _ hm).symm
  have hfirst : ∀ a ∈ slice s.work (bA + k) (lA - k), key (get d s.work bB) < key a := by
    rw [hA']; exact hcutA.2.2
  have hlast : ∀ b ∈ slice s.work bB m, ∀ z ∈ (slice s.work (bA + k) (lA - k)).getLast?,
      key b < key z := by
    intro b hb z hz
    rw [getLast?_slice d _ _ _ (by omega) (by omega), show bA + k + (lA - k) - 1 = bA + lA - 1 by omega,
      Option.mem_def, Option.some.injEq] at hz
    rw [← hz]
    exact hcutB.2.1 b (hB' ▸ hb)
  have htake : s.work.toList.take (bA + k) = s.work.toList.take bA ++ (slice s.work bA lA).take k := by
    rw [List.take_add, slice_take _ _ _ _ hk, slice_eq]
  have hdrop : s.work.toList.drop (bB + m) =
      (slice s.work bB lB).drop m ++ s.work.toList.drop (bB + lB) := by
    rw [slice_drop, drop_eq_slice_append s.work (bB + m) (lB - m),
      show bB + m + (lB - m) = bB + lB by omega]
  have hmerged : s.work.toList.take (bA + k) ++ (slice s.work (bA + k) (lA - k)).merge
        (slice s.work bB m) (keyLE key) ++ s.work.toList.drop (bB + m) =
      s.work.toList.take bA ++ (slice s.work bA lA).merge (slice s.work bB lB) (keyLE key) ++
        s.work.toList.drop (bB + lB) := by
    rw [hfront, hback, htake, hdrop, hA', hB']
    simp only [List.append_assoc]
  have hAB' : bB = bA + k + (lA - k) := by omega
  split
  · next hle =>
    show (mergeLow cmp d s.work s.minGallop (bA + k) (lA - k) bB m).1.toList = _
    rw [mergeLow_eq cmp d key hcmp s.work s.minGallop hAB' (by omega) (by omega) (by omega)
      (hA' ▸ hsA.drop k) (hB' ▸ hsB.take m) hfirst hlast hok]
    exact hmerged
  · next hle =>
    show (mergeHigh cmp d s.work s.minGallop (bA + k) (lA - k) bB m).1.toList = _
    rw [mergeHigh_eq cmp d key hcmp s.work s.minGallop hAB' (by omega) (by omega) (by omega)
      (hA' ▸ hsA.drop k) (hB' ▸ hsB.take m) hfirst hlast hok]
    exact hmerged

end Merge

/-! ### Keeping the stack sorted -/

namespace Sorter

/-- What a sort in progress keeps towards sorting the array `o`: its runs follow one
another from the start of the array up to `top`, none is empty, each holds the stable
sort of what `o` held there, and past `top` the array is still `o`. -/
structure Sorts (key : α → Int) (o : Array α) (top : Nat) (s : Sorter α) : Prop where
  chain : Chain 0 s.runs.toList top
  fits : top ≤ o.size
  nonempty : ∀ r ∈ s.runs.toList, 0 < r.2
  work : s.work.toList = sortedRuns key o s.runs.toList ++ o.toList.drop top

variable {key : α → Int} {o : Array α} {top : Nat} {s : Sorter α}

/-- A sort in progress holds only elements of the array it sorts. -/
theorem Sorts.mem (h : s.Sorts key o top) {x : α} (hx : x ∈ s.work.toList) : x ∈ o.toList := by
  rw [h.work, List.mem_append] at hx
  rcases hx with hx | hx
  · exact mem_of_mem_sortedRuns hx
  · exact List.mem_of_mem_drop hx

/-- A sort in progress keeps the size of the array it sorts. -/
theorem Sorts.size_eq (h : s.Sorts key o top) : s.work.size = o.size := by
  rw [← Array.length_toList, h.work, List.length_append, length_sortedRuns h.chain h.fits,
    List.length_drop, Array.length_toList]
  have := h.fits
  omega

variable (cmp : α → α → Float) (d : α) {ok : α → Prop} (hcmp : Follows cmp key ok)
include hcmp

/-- Merging two neighbouring runs among the top three keeps the stack sorted: the
merge of the stable sorts of two neighbouring stretches is the stable sort of both. -/
theorem Sorts.mergeAt (h : s.Sorts key o top) (hok : ∀ x ∈ o.toList, ok x) {i : Nat}
    (hi : i + 2 = s.runs.size ∨ i + 3 = s.runs.size) : (s.mergeAt cmp d i).Sorts key o top := by
  rcases hA : s.runs.getD i (0, 0) with ⟨bA, lA⟩
  rcases hB : s.runs.getD (i + 1) (0, 0) with ⟨bB, lB⟩
  have hl := toList_eq_split s.runs i (by omega)
  rw [hA, hB] at hl
  have hpre : (s.runs.toList.take i).length = i := by simp; omega
  generalize s.runs.toList.take i = pre at hl hpre
  generalize s.runs.toList.drop (i + 2) = rest at hl
  have hc := h.chain
  rw [hl] at hc
  obtain ⟨mid, hcpre, hbA, hbB, hcrest⟩ := chain_append.1 hc
  simp only at hbA hbB hcrest
  subst hbA
  have hend := hcrest.le
  have hfits := h.fits
  have hlen : (sortedRuns key o pre).length = bA := by
    rw [length_sortedRuns hcpre (by omega)]; rfl
  have hlA : ((slice o bA lA).mergeSort (keyLE key)).length = lA := by
    rw [List.length_mergeSort, length_slice _ _ _ (by omega)]
  have hlB : ((slice o bB lB).mergeSort (keyLE key)).length = lB := by
    rw [List.length_mergeSort, length_slice _ _ _ (by omega)]
  have hw := h.work
  rw [hl, sortedRuns_append, sortedRuns_cons, sortedRuns_cons] at hw
  simp only at hw
  obtain ⟨htake, hsA, -⟩ := views_of_toList_eq (P := sortedRuns key o pre)
    (X := (slice o bA lA).mergeSort (keyLE key)) (R := (slice o bB lB).mergeSort (keyLE key) ++
    (sortedRuns key o rest ++ o.toList.drop top)) (by rw [hw]; simp only [List.append_assoc])
  obtain ⟨-, hsB, hdrop⟩ := views_of_toList_eq (P := sortedRuns key o pre ++
    (slice o bA lA).mergeSort (keyLE key)) (X := (slice o bB lB).mergeSort (keyLE key))
    (R := sortedRuns key o rest ++ o.toList.drop top)
    (by rw [hw]; simp only [List.append_assoc])
  rw [hlen] at htake
  rw [hlen, hlA] at hsA
  rw [List.length_append, hlen, hlA, hlB, ← hbB] at hsB hdrop
  have hA0 : 0 < lA := h.nonempty (bA, lA) (by rw [hl]; simp)
  have hB0 : 0 < lB := h.nonempty (bB, lB) (by rw [hl]; simp)
  have hsize := h.size_eq
  have hmw := mergeAt_work cmp d key hcmp s i hA hB hbB (by omega) hA0 hB0
    (hsA ▸ keySorted_mergeSort key _) (hsB ▸ keySorted_mergeSort key _) fun x hx => hok x (h.mem hx)
  have hruns : (s.mergeAt cmp d i).runs.toList = pre ++ (bA, lA + lB) :: rest := by
    rw [runs_mergeAt cmp d s i hA hB]
    exact toList_mergedRuns s.runs hi hl hpre _
  refine ⟨?_, h.fits, ?_, ?_⟩
  · rw [hruns]
    exact chain_append.2 ⟨bA, hcpre, rfl, by rwa [← Nat.add_assoc]⟩
  · rw [hruns]
    intro r hr
    simp only [List.mem_append, List.mem_cons] at hr
    rcases hr with hr | rfl | hr
    · exact h.nonempty r (by rw [hl]; simp [hr])
    · simp only; omega
    · exact h.nonempty r (by rw [hl]; simp [hr])
  · rw [hmw, hruns, htake, hsA, hsB, hdrop, sortedRuns_append, sortedRuns_cons,
      ← mergeSort_append (keyLE key) (keyLE_trans key) (keyLE_total key), hbB, slice_append]
    simp only [List.append_assoc]

/-- Collapsing the top of the stack keeps it sorted. -/
theorem Sorts.collapse (h : s.Sorts key o top) (hok : ∀ x ∈ o.toList, ok x) (fuel : Nat) :
    (collapse cmp d fuel s).Sorts key o top := by
  induction fuel generalizing s with
  | zero => exact h
  | succ fuel ih =>
    rw [Sorter.collapse]
    dsimp only
    split
    · split
      · exact ih (h.mergeAt cmp d hcmp hok (by split <;> omega))
      split
      · exact ih (h.mergeAt cmp d hcmp hok (by omega))
      · exact h
    · exact h

/-- Collapsing the whole stack keeps it sorted. -/
theorem Sorts.forceCollapse (h : s.Sorts key o top) (hok : ∀ x ∈ o.toList, ok x) (fuel : Nat) :
    (forceCollapse cmp d fuel s).Sorts key o top := by
  induction fuel generalizing s with
  | zero => exact h
  | succ fuel ih =>
    rw [Sorter.forceCollapse]
    dsimp only
    split
    · exact ih (h.mergeAt cmp d hcmp hok (by split <;> omega))
    · exact h

end Sorter

end LaneGate.Sorting
