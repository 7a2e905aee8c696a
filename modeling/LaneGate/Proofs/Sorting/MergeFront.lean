import LaneGate.Proofs.Sorting.Search
/-!
# A merge from the front computes `List.merge`

A merge of two neighbouring sorted runs from the front, with its steps one at a time
and its gallops, writes into the array exactly the merge `List.merge` of the two
runs, when the comparison follows an integer key (`mergeLow_eq`).

The merge is read through four views of its state: what is written before the output
position (`written`), what is left of each run (`restA`, `restB`) and what lies past
the second run (`beyond`). Every step changes the views by a list operation (taking
the head of a rest, or a stretch of it, onto the output), and the invariant `Merges`
says that the written part, then the merge of the two rests, then the rest of the
array, make the target. A step keeps the invariant because the element or stretch
it takes goes first in the merge of the rests: one of the cuts of `List.merge` in
`LaneGate.Proofs.Sorting.Merge`, whose side conditions come from the comparison that
chose the step or from the gallop that measured the stretch.

The merge runs on fuel. Each step but a return to stepping takes an element, and a
return follows a gallop, so twice the elements left plus one while galloping
bounds the steps still to come (`Phase.weight`), and the fuel the sort gives is
enough.
-/

namespace LaneGate.Sorting

variable {α : Type}

/-! ### Sorted lists -/

section Sorted

variable {key : α → Int}

theorem KeySorted.head_le {x : α} {xs : List α} (h : KeySorted key (x :: xs)) :
    ∀ y ∈ x :: xs, key x ≤ key y := by
  intro y hy
  rcases List.mem_cons.1 hy with rfl | hy
  · exact Int.le_refl _
  · exact List.rel_of_pairwise_cons h hy

theorem KeySorted.le_last {xs : List α} {z : α} (h : KeySorted key (xs ++ [z])) :
    ∀ y ∈ xs ++ [z], key y ≤ key z := by
  intro y hy
  rcases List.mem_append.1 hy with hy | hy
  · exact (List.pairwise_append.1 h).2.2 y hy z (List.mem_singleton_self z)
  · obtain rfl := List.mem_singleton.1 hy
    exact Int.le_refl _

theorem KeySorted.take {xs : List α} (h : KeySorted key xs) (k : Nat) : KeySorted key (xs.take k) :=
  h.sublist (List.take_sublist k xs)

theorem KeySorted.drop {xs : List α} (h : KeySorted key xs) (k : Nat) : KeySorted key (xs.drop k) :=
  h.sublist (List.drop_sublist k xs)

theorem KeySorted.tail {xs : List α} (h : KeySorted key xs) : KeySorted key xs.tail :=
  h.sublist (List.tail_sublist xs)

theorem KeySorted.dropLast {xs : List α} (h : KeySorted key xs) : KeySorted key xs.dropLast :=
  h.sublist (List.dropLast_sublist xs)

/-- The last element of a stretch cut off the front of a list is the list's last. -/
theorem mem_getLast?_drop {xs : List α} {k : Nat} {z : α} (h : z ∈ (xs.drop k).getLast?) :
    z ∈ xs.getLast? := by
  rw [List.getLast?_drop] at h
  split at h
  · simp at h
  · exact h

end Sorted

/-! ### Stretches of written arrays -/

theorem slice_writeFrom_of_le (a : Array α) (pos : Nat) (xs : List α) {start : Nat} (count : Nat)
    (hq : pos + xs.length ≤ start) (h : pos + xs.length ≤ a.size) :
    slice (writeFrom a pos xs) start count = slice a start count := by
  rw [slice_eq, slice_eq, drop_writeFrom_of_le a pos xs hq h]

theorem slice_drop (a : Array α) (start count k : Nat) :
    (slice a start count).drop k = slice a (start + k) (count - k) := by
  simp only [slice_eq, List.drop_take, List.drop_drop]

theorem slice_take (a : Array α) (start count k : Nat) (hk : k ≤ count) :
    (slice a start count).take k = slice a start k := by
  simp only [slice_eq, List.take_take, Nat.min_eq_left hk]

/-- How far a merge is from its end: twice the elements left, plus one while
galloping (a gallop that ends takes no element). -/
def Phase.weight : Phase → Nat
  | .stepping .. => 0
  | .galloping .. => 1

/-! ### A merge from the front -/

namespace FrontMerge

/-- The array before the output position: what lies before the merge and the output
so far. -/
def written (s : FrontMerge α) : List α := s.work.toList.take s.dest

/-- What is left of the first run, set aside. -/
def restA (s : FrontMerge α) : List α := slice s.temp s.cursorA s.lengthA

/-- What is left of the second run, in place. -/
def restB (s : FrontMerge α) : List α := slice s.work s.cursorB s.lengthB

/-- The array past the second run. -/
def beyond (s : FrontMerge α) : List α := s.work.toList.drop (s.cursorB + s.lengthB)

/-- The positions of a merge from the front: the gap between output and second run is
as long as what is left of the first run, the second run's rest lies inside the
array, and the first run's rest reaches to the end of what was set aside. -/
structure Fits (s : FrontMerge α) : Prop where
  gap : s.dest + s.lengthA = s.cursorB
  fitsB : s.cursorB + s.lengthB ≤ s.work.size
  endA : s.cursorA + s.lengthA = s.temp.size

variable (d : α) {s : FrontMerge α}

theorem Fits.withMinGallop (h : s.Fits) (m : Nat) : ({ s with minGallop := m } : FrontMerge α).Fits :=
  ⟨h.gap, h.fitsB, h.endA⟩

theorem length_restA (h : s.Fits) : s.restA.length = s.lengthA :=
  length_slice _ _ _ (by have := h.endA; omega)

theorem length_restB (h : s.Fits) : s.restB.length = s.lengthB :=
  length_slice _ _ _ h.fitsB

theorem restA_eq_cons (h : s.Fits) (hA : 1 ≤ s.lengthA) :
    s.restA = get d s.temp s.cursorA :: (takeA d s).restA := by
  simp only [restA, FrontMerge.takeA]
  rw [← slice_succ d _ _ _ (by have := h.endA; omega), Nat.sub_add_cancel hA]

theorem restB_eq_cons (h : s.Fits) (hB : 1 ≤ s.lengthB) :
    s.restB = get d s.work s.cursorB :: slice s.work (s.cursorB + 1) (s.lengthB - 1) := by
  simp only [restB]
  rw [← slice_succ d _ _ _ (by have := h.fitsB; omega), Nat.sub_add_cancel hB]

/-- Taking the second run's next element puts it after the output. -/
theorem takeB_views (h : s.Fits) (hB : 1 ≤ s.lengthB) :
    (takeB d s).Fits ∧ (takeB d s).written = s.written ++ [get d s.work s.cursorB] ∧
      (takeB d s).restA = s.restA ∧ s.restB = get d s.work s.cursorB :: (takeB d s).restB ∧
      (takeB d s).beyond = s.beyond := by
  have hw : s.dest + [get d s.work s.cursorB].length ≤ s.work.size := by
    have := h.gap; have := h.fitsB; simp; omega
  refine ⟨⟨by simp [FrontMerge.takeB]; have := h.gap; omega,
    by simp [FrontMerge.takeB]; have := h.fitsB; omega, h.endA⟩, ?_, rfl, ?_, ?_⟩
  · simp only [written, FrontMerge.takeB, setIfInBounds_eq_writeFrom]
    exact take_writeFrom _ _ _ hw
  · rw [restB_eq_cons d h hB]
    simp only [restB, FrontMerge.takeB, setIfInBounds_eq_writeFrom]
    rw [slice_writeFrom_of_le _ _ _ _ (by have := h.gap; simp; omega) hw]
  · simp only [beyond, FrontMerge.takeB, setIfInBounds_eq_writeFrom]
    rw [drop_writeFrom_of_le _ _ _ (by have := h.gap; simp; omega) hw]
    congr 1
    omega

/-- Taking the first run's next element puts it after the output. -/
theorem takeA_views (h : s.Fits) (hA : 1 ≤ s.lengthA) :
    (takeA d s).Fits ∧ (takeA d s).written = s.written ++ [get d s.temp s.cursorA] ∧
      s.restA = get d s.temp s.cursorA :: (takeA d s).restA ∧ (takeA d s).restB = s.restB ∧
      (takeA d s).beyond = s.beyond := by
  have hw : s.dest + [get d s.temp s.cursorA].length ≤ s.work.size := by
    have := h.gap; have := h.fitsB; simp; omega
  refine ⟨⟨by simp [FrontMerge.takeA]; have := h.gap; omega,
    by simp [FrontMerge.takeA]; have := h.fitsB; omega,
    by simp [FrontMerge.takeA]; have := h.endA; omega⟩, ?_, restA_eq_cons d h hA, ?_, ?_⟩
  · simp only [written, FrontMerge.takeA, setIfInBounds_eq_writeFrom]
    exact take_writeFrom _ _ _ hw
  · simp only [restB, FrontMerge.takeA, setIfInBounds_eq_writeFrom]
    rw [slice_writeFrom_of_le _ _ _ _ (by have := h.gap; simp; omega) hw]
  · simp only [beyond, FrontMerge.takeA, setIfInBounds_eq_writeFrom]
    rw [drop_writeFrom_of_le _ _ _ (by have := h.gap; simp; omega) hw]

/-- Taking a stretch of the first run puts it after the output. -/
theorem takeManyA_views (h : s.Fits) {k : Nat} (hk : k ≤ s.lengthA) :
    (takeManyA s k).Fits ∧ (takeManyA s k).written = s.written ++ s.restA.take k ∧
      (takeManyA s k).restA = s.restA.drop k ∧ (takeManyA s k).restB = s.restB ∧
      (takeManyA s k).beyond = s.beyond := by
  have hlen : (slice s.temp s.cursorA k).length = k :=
    length_slice _ _ _ (by have := h.endA; omega)
  have hw : s.dest + (slice s.temp s.cursorA k).length ≤ s.work.size := by
    have := h.gap; have := h.fitsB; omega
  refine ⟨⟨by simp [FrontMerge.takeManyA]; have := h.gap; omega,
    by simp [FrontMerge.takeManyA]; have := h.fitsB; omega,
    by simp [FrontMerge.takeManyA]; have := h.endA; omega⟩, ?_, ?_, ?_, ?_⟩
  · simp only [written, FrontMerge.takeManyA, restA]
    rw [slice_take _ _ _ _ hk, show s.dest + k = s.dest + (slice s.temp s.cursorA k).length by
      rw [hlen], take_writeFrom _ _ _ hw]
  · simp only [restA, FrontMerge.takeManyA, slice_drop]
  · simp only [restB, FrontMerge.takeManyA]
    rw [slice_writeFrom_of_le _ _ _ _ (by have := h.gap; omega) hw]
  · simp only [beyond, FrontMerge.takeManyA]
    rw [drop_writeFrom_of_le _ _ _ (by have := h.gap; omega) hw]

/-- Taking a stretch of the second run moves it down after the output. -/
theorem takeManyB_views (h : s.Fits) {k : Nat} (hk : k ≤ s.lengthB) :
    (takeManyB s k).Fits ∧ (takeManyB s k).written = s.written ++ s.restB.take k ∧
      (takeManyB s k).restA = s.restA ∧ (takeManyB s k).restB = s.restB.drop k ∧
      (takeManyB s k).beyond = s.beyond := by
  have hlen : (slice s.work s.cursorB k).length = k :=
    length_slice _ _ _ (by have := h.fitsB; omega)
  have hw : s.dest + (slice s.work s.cursorB k).length ≤ s.work.size := by
    have := h.gap; have := h.fitsB; omega
  refine ⟨⟨by simp [FrontMerge.takeManyB]; have := h.gap; omega,
    by simp [FrontMerge.takeManyB]; have := h.fitsB; omega, h.endA⟩, ?_, rfl, ?_, ?_⟩
  · simp only [written, FrontMerge.takeManyB, restB]
    rw [slice_take _ _ _ _ hk, show s.dest + k = s.dest + (slice s.work s.cursorB k).length by
      rw [hlen], take_writeFrom _ _ _ hw]
  · simp only [restB, FrontMerge.takeManyB]
    rw [slice_writeFrom_of_le _ _ _ _ (by have := h.gap; omega) hw, slice_drop]
  · simp only [beyond, FrontMerge.takeManyB]
    rw [drop_writeFrom_of_le _ _ _ (by have := h.gap; omega) hw]
    congr 1
    omega

/-- Ending by copying the first run's rest: the rests follow the output in order. -/
theorem finish_restOfFirst (h : s.Fits) :
    (finish d s .restOfFirst).toList = s.written ++ s.restA ++ s.restB ++ s.beyond := by
  have hlen : (slice s.temp s.cursorA s.lengthA).length = s.lengthA :=
    length_slice _ _ _ (by have := h.endA; omega)
  rw [FrontMerge.finish, writeFrom_toList s.work s.dest _ (by have := h.gap; have := h.fitsB; omega),
    hlen, h.gap, drop_eq_slice_append s.work s.cursorB s.lengthB]
  simp only [written, restA, restB, beyond, List.append_assoc]

/-- Ending by putting the first run's last element after the second run's rest. -/
theorem finish_lastOfFirst (h : s.Fits) (hA : s.lengthA = 1) :
    (finish d s .lastOfFirst).toList = s.written ++ s.restB ++ s.restA ++ s.beyond := by
  have hlen : (slice s.work s.cursorB s.lengthB).length = s.lengthB :=
    length_slice _ _ _ h.fitsB
  have hw : s.dest + (slice s.work s.cursorB s.lengthB).length ≤ s.work.size := by
    have := h.gap; have := h.fitsB; omega
  have hw' : s.dest + s.lengthB + [get d s.temp s.cursorA].length ≤
      (writeFrom s.work s.dest (slice s.work s.cursorB s.lengthB)).size := by
    have := h.gap; have := h.fitsB; simp; omega
  have hrestA : s.restA = [get d s.temp s.cursorA] := by
    rw [restA, hA, show 1 = 0 + 1 from rfl, slice_succ d _ _ _ (by have := h.endA; omega),
      slice_zero]
  rw [FrontMerge.finish, setIfInBounds_eq_writeFrom, writeFrom_toList _ _ _ hw',
    show s.dest + s.lengthB = s.dest + (slice s.work s.cursorB s.lengthB).length by rw [hlen],
    take_writeFrom _ _ _ hw, drop_writeFrom_of_le _ _ _ (Nat.le_add_right _ _) hw, hrestA]
  simp only [written, restB, beyond, List.length_singleton, hlen, List.append_assoc]
  rw [show s.dest + s.lengthB + 1 = s.cursorB + s.lengthB by have := h.gap; omega]

/-- What a merge from the front keeps towards its target: the written part, the merge
of the two rests and the rest of the array make the target; the rests are sorted,
and every element left of the second run goes strictly before the first run's last
element, which the merge may therefore put last. -/
structure Merges (key : α → Int) (target : List α) (s : FrontMerge α) : Prop where
  fits : s.Fits
  sortedA : KeySorted key s.restA
  sortedB : KeySorted key s.restB
  lastA : ∀ b ∈ s.restB, ∀ z ∈ s.restA.getLast?, key b < key z
  merged : s.written ++ s.restA.merge s.restB (keyLE key) ++ s.beyond = target

variable {key : α → Int} {target : List α}

theorem Merges.withMinGallop (h : s.Merges key target) (m : Nat) :
    ({ s with minGallop := m } : FrontMerge α).Merges key target :=
  ⟨h.fits.withMinGallop m, h.sortedA, h.sortedB, h.lastA, h.merged⟩

/-- The second run's next element may be output when it goes strictly before all that
is left of the first run. -/
theorem Merges.takeB (h : s.Merges key target) (hB : 1 ≤ s.lengthB)
    (hlt : ∀ a ∈ s.restA, key (get d s.work s.cursorB) < key a) : (FrontMerge.takeB d s).Merges key target := by
  obtain ⟨hfit, hw, hA, hB', hbe⟩ := takeB_views d h.fits hB
  have hsB := h.sortedB
  rw [hB'] at hsB
  refine ⟨hfit, hA ▸ h.sortedA, hsB.tail, fun b hb z hz => ?_, ?_⟩
  · exact h.lastA b (by rw [hB']; exact List.mem_cons_of_mem _ hb) z (hA ▸ hz)
  · rw [hw, hA, hbe, ← h.merged, hB',
      show get d s.work s.cursorB :: (FrontMerge.takeB d s).restB = [get d s.work s.cursorB] ++ (FrontMerge.takeB d s).restB
        from rfl, merge_append_front_right key (by simpa using hlt)]
    simp only [List.append_assoc, List.cons_append]

/-- The first run's next element may be output when it goes before all that is left of
the second run. -/
theorem Merges.takeA (h : s.Merges key target) (hA : 1 ≤ s.lengthA)
    (hle : ∀ b ∈ s.restB, key (get d s.temp s.cursorA) ≤ key b) : (FrontMerge.takeA d s).Merges key target := by
  obtain ⟨hfit, hw, hA', hB, hbe⟩ := takeA_views d h.fits hA
  have hsA := h.sortedA
  rw [hA'] at hsA
  refine ⟨hfit, hsA.tail, hB ▸ h.sortedB, fun b hb z hz => ?_, ?_⟩
  · refine h.lastA b (hB ▸ hb) z ?_
    rw [hA', List.getLast?_cons]
    simp [Option.mem_def.1 hz]
  · rw [hw, hB, hbe, ← h.merged, hA',
      show get d s.temp s.cursorA :: (FrontMerge.takeA d s).restA = [get d s.temp s.cursorA] ++ (FrontMerge.takeA d s).restA
        from rfl, merge_append_front_left key (by simpa using hle)]
    simp only [List.append_assoc, List.cons_append]

/-- A stretch of the first run may be output when it goes before all that is left of
the second run. -/
theorem Merges.takeManyA (h : s.Merges key target) {k : Nat} (hk : k ≤ s.lengthA)
    (hle : ∀ a ∈ s.restA.take k, ∀ b ∈ s.restB, key a ≤ key b) :
    (FrontMerge.takeManyA s k).Merges key target := by
  obtain ⟨hfit, hw, hA, hB, hbe⟩ := takeManyA_views h.fits hk
  refine ⟨hfit, hA ▸ h.sortedA.drop k, hB ▸ h.sortedB,
    fun b hb z hz => h.lastA b (hB ▸ hb) z (mem_getLast?_drop (hA ▸ hz)), ?_⟩
  rw [hw, hA, hB, hbe, ← h.merged]
  conv => rhs; rw [← List.take_append_drop k s.restA]
  rw [merge_append_front_left key hle]
  simp only [List.append_assoc]

/-- A stretch of the second run may be output when it goes strictly before all that is
left of the first run. -/
theorem Merges.takeManyB (h : s.Merges key target) {k : Nat} (hk : k ≤ s.lengthB)
    (hlt : ∀ b ∈ s.restB.take k, ∀ a ∈ s.restA, key b < key a) :
    (FrontMerge.takeManyB s k).Merges key target := by
  obtain ⟨hfit, hw, hA, hB, hbe⟩ := takeManyB_views h.fits hk
  refine ⟨hfit, hA ▸ h.sortedA, hB ▸ h.sortedB.drop k,
    fun b hb z hz => h.lastA b (List.mem_of_mem_drop (hB ▸ hb)) z (hA ▸ hz), ?_⟩
  rw [hw, hA, hB, hbe, ← h.merged]
  conv => rhs; rw [← List.take_append_drop k s.restB]
  rw [merge_append_front_right key hlt]
  simp only [List.append_assoc]

/-- A merge that ends with a run used up, or with the first run's last element alone
left, has written its target. -/
theorem Merges.finish (h : s.Merges key target) {e : Ending}
    (hlast : e = .lastOfFirst → s.lengthA = 1)
    (hrest : e = .restOfFirst → s.lengthA = 0 ∨ s.lengthB = 0) :
    (FrontMerge.finish d s e).toList = target := by
  rw [← h.merged]
  cases e with
  | restOfFirst =>
    rw [finish_restOfFirst d h.fits]
    rcases hrest rfl with h0 | h0
    · simp [restA, h0]
    · simp [restB, h0]
  | lastOfFirst =>
    have hA := hlast rfl
    have hz : s.restA = [get d s.temp s.cursorA] := by
      rw [restA_eq_cons d h.fits (by omega)]
      simp [restA, FrontMerge.takeA, hA]
    have hlt : ∀ b ∈ s.restB, ∀ a ∈ s.restA, key b < key a := by
      intro b hb a ha
      rw [hz, List.mem_singleton] at ha
      exact h.lastA b hb a (by rw [hz, ha]; rfl)
    have := @merge_append_front_right α key s.restB s.restA [] hlt
    rw [List.append_nil, List.merge_right] at this
    rw [finish_lastOfFirst d h.fits hA, this]
    simp only [List.append_assoc]

theorem Merges.maybeTakeManyA (h : s.Merges key target) {k : Nat} (hk : k ≤ s.lengthA)
    (hle : ∀ a ∈ s.restA.take k, ∀ b ∈ s.restB, key a ≤ key b) :
    (if k > 0 then FrontMerge.takeManyA s k else s).Merges key target := by
  split
  · exact h.takeManyA hk hle
  · exact h

theorem Merges.maybeTakeManyB (h : s.Merges key target) {k : Nat} (hk : k ≤ s.lengthB)
    (hlt : ∀ b ∈ s.restB.take k, ∀ a ∈ s.restA, key b < key a) :
    (if k > 0 then FrontMerge.takeManyB s k else s).Merges key target := by
  split
  · exact h.takeManyB hk hlt
  · exact h

theorem rests_maybeTakeManyA (h : s.Fits) {k : Nat} (hk : k ≤ s.lengthA) :
    (if k > 0 then takeManyA s k else s).restA = s.restA.drop k ∧
      (if k > 0 then takeManyA s k else s).restB = s.restB := by
  split
  · exact ⟨(takeManyA_views h hk).2.2.1, (takeManyA_views h hk).2.2.2.1⟩
  · next hk0 => simp [show k = 0 by omega]

theorem rests_maybeTakeManyB (h : s.Fits) {k : Nat} (hk : k ≤ s.lengthB) :
    (if k > 0 then takeManyB s k else s).restA = s.restA ∧
      (if k > 0 then takeManyB s k else s).restB = s.restB.drop k := by
  split
  · exact ⟨(takeManyB_views h hk).2.2.1, (takeManyB_views h hk).2.2.2.1⟩
  · next hk0 => simp [show k = 0 by omega]

/-- Two merges whose second runs have one rest have one next element there. -/
theorem get_cursorB_eq {t : FrontMerge α} (hs : s.Fits) (ht : t.Fits) (hB : 1 ≤ s.lengthB)
    (hB' : 1 ≤ t.lengthB) (heq : s.restB = t.restB) :
    get d s.work s.cursorB = get d t.work t.cursorB := by
  rw [restB_eq_cons d hs hB, restB_eq_cons d ht hB'] at heq
  exact (List.cons.inj heq).1

/-- What is left of either run is part of the target. -/
theorem Merges.mem_target (h : s.Merges key target) {x : α} (hx : x ∈ s.restA ∨ x ∈ s.restB) :
    x ∈ target := by
  rw [← h.merged]
  exact List.mem_append_left _ (List.mem_append_right _ (List.mem_merge.2 hx))

/-- How a merge from the front ends: its invariant kept, and its ending one that
`Merges.finish` accepts. -/
def Done (key : α → Int) (target : List α) (r : FrontMerge α × Ending) : Prop :=
  r.1.Merges key target ∧ (r.2 = .lastOfFirst → r.1.lengthA = 1) ∧
    (r.2 = .restOfFirst → r.1.lengthA = 0 ∨ r.1.lengthB = 0)

variable (cmp : α → α → Float) {ok : α → Prop} (hcmp : Follows cmp key ok)
include hcmp

/-- A merge from the front, started with two elements of the first run and one of the
second and with fuel for twice its elements, ends done. The induction is on the fuel;
each step keeps `Merges` by the comparison or gallop that chose it, and takes elements
enough to pay for its fuel. -/
theorem run_done (fuel : Nat) (s : FrontMerge α) (ph : Phase) (h : s.Merges key target)
    (hok : ∀ x ∈ target, ok x) (hA : 2 ≤ s.lengthA) (hB : 1 ≤ s.lengthB)
    (hfuel : 2 * (s.lengthA + s.lengthB) + ph.weight ≤ fuel) :
    Done key target (run cmp d fuel s ph) := by
  induction fuel generalizing s ph with
  | zero => omega
  | succ fuel ih =>
    have hAc := restA_eq_cons d h.fits (by omega)
    have hBc := (takeB_views d h.fits hB).2.2.2.1
    have hheadA := (hAc ▸ h.sortedA).head_le
    have hheadB := (hBc ▸ h.sortedB).head_le
    have okA : ok (get d s.temp s.cursorA) :=
      hok _ (h.mem_target (.inl (by rw [hAc]; exact List.mem_cons_self)))
    have okB : ok (get d s.work s.cursorB) :=
      hok _ (h.mem_target (.inr (by rw [hBc]; exact List.mem_cons_self)))
    cases ph with
    | stepping winsA winsB =>
      simp only [run]
      split
      · -- the second run's next element goes strictly first
        next hb =>
        rw [hcmp _ _ okB okA, decide_eq_true_iff] at hb
        have h1 := h.takeB d hB fun a ha => Int.lt_of_lt_of_le hb (hheadA a (hAc ▸ ha))
        split
        · next h0 => exact ⟨h1, (by rintro ⟨⟩), fun _ => .inr (by simpa using h0)⟩
        · next hne =>
          have hB' : 1 ≤ (FrontMerge.takeB d s).lengthB := by simp at hne; omega
          have hf : 2 * (s.lengthA + (s.lengthB - 1)) + 1 ≤ fuel := by
            simp only [Phase.weight] at hfuel; omega
          split
          · exact ih _ _ (h1.withMinGallop _) hA hB' (by simpa [Phase.weight, FrontMerge.takeB])
          · exact ih _ _ h1 hA hB' (by simp [Phase.weight, FrontMerge.takeB]; omega)
      · -- the first run's next element goes first
        next hb =>
        rw [hcmp _ _ okB okA, decide_eq_true_iff] at hb
        have h1 := h.takeA d (by omega) fun b hb' =>
          Int.le_trans (Int.not_lt.1 hb) (hheadB b (hBc ▸ hb'))
        split
        · next hone => exact ⟨h1, fun _ => by simpa using hone, (by rintro ⟨⟩)⟩
        · next hne =>
          have hA' : 2 ≤ (FrontMerge.takeA d s).lengthA := by
            simp [FrontMerge.takeA] at hne ⊢; omega
          have hf : 2 * (s.lengthA - 1 + s.lengthB) + 1 ≤ fuel := by
            simp only [Phase.weight] at hfuel; omega
          split
          · exact ih _ _ (h1.withMinGallop _) hA' hB (by simpa [Phase.weight, FrontMerge.takeA])
          · exact ih _ _ h1 hA' hB (by simp [Phase.weight, FrontMerge.takeA]; omega)
    | galloping winsA winsB first =>
      rw [run]
      split
      · exact ih _ _ (h.withMinGallop _) hA hB (by simp [Phase.weight] at hfuel ⊢; omega)
      · extract_lets X kA s1 s2 kB s3 s4
        have hX : X.Merges key target := h.withMinGallop _
        have hcutA : CutRight key X.restA (get d X.work X.cursorB) kA :=
          gallopRight_cut cmp d key hcmp X.temp (get d X.work X.cursorB) 0
            (by have := hX.fits.endA; omega) hX.sortedA (by simp [X]; omega) okB
            fun y hy => hok _ (hX.mem_target (.inl hy))
        obtain ⟨hkA, hcA1, hcA2⟩ := hcutA
        rw [length_restA hX.fits] at hkA
        have h1 : s1.Merges key target := hX.maybeTakeManyA hkA
          fun a ha b hb => Int.le_trans (hcA1 a ha) (hheadB b (hBc ▸ hb))
        obtain ⟨h1A, h1B⟩ := rests_maybeTakeManyA hX.fits hkA
        have h1lA : s1.lengthA = s.lengthA - kA := lengthA_maybeTakeManyA kA
        have h1lB : s1.lengthB = s.lengthB := lengthB_maybeTakeManyA kA
        split
        · next hone => exact ⟨h1, fun _ => by simpa using hone.2, (by rintro ⟨⟩)⟩
        split
        · next hzero => exact ⟨h1, (by rintro ⟨⟩), fun _ => .inl (by simpa using hzero.2)⟩
        next hnot1 hnot0 =>
        have h1A2 : 2 ≤ s1.lengthA := by simp only [beq_iff_eq] at hnot1 hnot0; omega
        have hb0 : get d s1.work s1.cursorB = get d X.work X.cursorB :=
          get_cursorB_eq d h1.fits hX.fits (by omega) (by simp [X]; omega) h1B
        have h2 : s2.Merges key target := h1.takeB d (by omega) fun a ha => by
          rw [hb0]; exact hcA2 a (h1A ▸ ha)
        obtain ⟨-, -, h2A, h2Bc, -⟩ := takeB_views d h1.fits (by omega)
        have h2lB : s2.lengthB = s.lengthB - 1 := by simp [s2, FrontMerge.takeB, h1lB]
        split
        · next h0 => exact ⟨h2, (by rintro ⟨⟩), fun _ => .inr (by simpa using h0)⟩
        next hB2 =>
        have hB2' : 1 ≤ s2.lengthB := by simp only [beq_iff_eq] at hB2; omega
        have h2Ac := restA_eq_cons d h2.fits (by simp [s2, FrontMerge.takeB]; omega)
        have hcutB : CutLeft key s2.restB (get d s2.temp s2.cursorA) kB :=
          gallopLeft_cut cmp d key hcmp s2.work (get d s2.temp s2.cursorA) 0 h2.fits.fitsB
            h2.sortedB hB2' (hok _ (h2.mem_target (.inl (by rw [h2Ac]; exact List.mem_cons_self))))
            fun y hy => hok _ (h2.mem_target (.inr hy))
        obtain ⟨hkB, hcB1, hcB2⟩ := hcutB
        rw [length_restB h2.fits] at hkB
        have hhead2 := (h2Ac ▸ h2.sortedA).head_le
        have h3 : s3.Merges key target := h2.maybeTakeManyB hkB
          fun b hb a ha => Int.lt_of_lt_of_le (hcB1 b hb) (hhead2 a (h2Ac ▸ ha))
        obtain ⟨h3A, h3B⟩ := rests_maybeTakeManyB h2.fits hkB
        have h3lA : s3.lengthA = s2.lengthA := lengthA_maybeTakeManyB kB
        have h3lB : s3.lengthB = s2.lengthB - kB := lengthB_maybeTakeManyB kB
        have ha0 : get d s3.temp s3.cursorA = get d s2.temp s2.cursorA := by
          simp only [s3]; split <;> rfl
        split
        · next h0 => exact ⟨h3, (by rintro ⟨⟩), fun _ => .inr (by simpa using h0.2)⟩
        next hnotB =>
        have h3B1 : 1 ≤ s3.lengthB := by simp only [beq_iff_eq] at hB2 hnotB; omega
        have h4 : s4.Merges key target := h3.takeA d (by simp [s2, FrontMerge.takeB] at h3lA; omega)
          fun b hb => by rw [ha0]; exact hcB2 b (h3B ▸ hb)
        have h4lA : s4.lengthA = s3.lengthA - 1 := rfl
        split
        · next hone => exact ⟨h4, fun _ => by simpa using hone, (by rintro ⟨⟩)⟩
        · next hnot =>
          simp only [beq_iff_eq] at hnot
          have h2lA : s2.lengthA = s1.lengthA := rfl
          have h4lB : s4.lengthB = s3.lengthB := rfl
          have hXl : X.lengthA = s.lengthA ∧ X.lengthB = s.lengthB := ⟨rfl, rfl⟩
          have hw : (Phase.galloping winsA winsB first).weight = 1 := rfl
          have hw' : (Phase.galloping kA kB false).weight = 1 := rfl
          refine ih _ _ h4 (by omega) h3B1 ?_
          omega

end FrontMerge

/-- Every element of two merged stretches, with what lies before and after them, is
an element of the array. -/
theorem mem_of_mem_merged {work : Array α} {baseA lengthA baseB lengthB : Nat} {le : α → α → Bool}
    {x : α} (hx : x ∈ work.toList.take baseA ++ (slice work baseA lengthA).merge
      (slice work baseB lengthB) le ++ work.toList.drop (baseB + lengthB)) :
    x ∈ work.toList := by
  simp only [List.mem_append, List.mem_merge, slice_eq] at hx
  rcases hx with (hx | hx | hx) | hx
  · exact List.mem_of_mem_take hx
  · exact List.mem_of_mem_drop (List.mem_of_mem_take hx)
  · exact List.mem_of_mem_drop (List.mem_of_mem_take hx)
  · exact List.mem_of_mem_drop hx

/-- The first run copied aside, as a stretch of the copy. -/
theorem slice_extract (a : Array α) (start count : Nat) :
    slice (a.extract start (start + count)) 0 count = slice a start count := by
  simp [slice_eq, List.extract_eq_take_drop, List.take_take]

section Keyed

variable (cmp : α → α → Float) (d : α) (key : α → Int) {ok : α → Prop} (hcmp : Follows cmp key ok)
include hcmp

/-- A merge from the front of two neighbouring sorted runs writes their merge in
place, when the second run's first element goes strictly before the whole first run
and its whole run strictly before the first run's last element (as the trimming
before a merge leaves them). -/
theorem mergeLow_eq (work : Array α) (minGallop : Nat) {baseA lengthA baseB lengthB : Nat}
    (hAB : baseB = baseA + lengthA) (hB : baseB + lengthB ≤ work.size) (hA1 : 1 ≤ lengthA)
    (hB1 : 1 ≤ lengthB) (hsA : KeySorted key (slice work baseA lengthA))
    (hsB : KeySorted key (slice work baseB lengthB))
    (hfirst : ∀ a ∈ slice work baseA lengthA, key (get d work baseB) < key a)
    (hlast : ∀ b ∈ slice work baseB lengthB, ∀ z ∈ (slice work baseA lengthA).getLast?,
      key b < key z) (hok : ∀ x ∈ work.toList, ok x) :
    (mergeLow cmp d work minGallop baseA lengthA baseB lengthB).1.toList =
      work.toList.take baseA ++ (slice work baseA lengthA).merge (slice work baseB lengthB) (keyLE key) ++
        work.toList.drop (baseB + lengthB) := by
  have hA : slice (work.extract baseA (baseA + lengthA)) 0 lengthA = slice work baseA lengthA :=
    slice_extract work baseA lengthA
  have h0 : FrontMerge.Merges key (work.toList.take baseA ++
      (slice work baseA lengthA).merge (slice work baseB lengthB) (keyLE key) ++
        work.toList.drop (baseB + lengthB))
      ⟨work, work.extract baseA (baseA + lengthA), baseA, 0, baseB, lengthA, lengthB, minGallop⟩ := by
    refine ⟨⟨hAB.symm, hB, by simp; omega⟩, ?_, hsB, ?_, ?_⟩
    · simpa only [FrontMerge.restA, hA] using hsA
    · simpa only [FrontMerge.restA, FrontMerge.restB, hA] using hlast
    · simp only [FrontMerge.written, FrontMerge.restA, FrontMerge.restB, FrontMerge.beyond, hA]
  have h1 := h0.takeB d hB1 (by simpa only [FrontMerge.restA, hA] using hfirst)
  simp only [mergeLow]
  split
  · next h0B => exact h1.finish d (by rintro ⟨⟩) fun _ => .inr (by simpa using h0B)
  next hB0 =>
  split
  · next hone => exact h1.finish d (fun _ => by simpa using hone) (by rintro ⟨⟩)
  next hne =>
  simp only [beq_iff_eq] at hB0 hne
  have hr := FrontMerge.run_done d cmp hcmp (2 * (lengthA + lengthB) + 4) _ (.stepping 0 0) h1
    (fun x hx => hok x (mem_of_mem_merged hx))
    (by simp only [FrontMerge.takeB] at hne ⊢; omega) (by simp only [FrontMerge.takeB] at hB0 ⊢; omega)
    (by simp only [FrontMerge.takeB, Phase.weight]; omega)
  exact hr.1.finish d hr.2.1 hr.2.2

end Keyed

end LaneGate.Sorting
