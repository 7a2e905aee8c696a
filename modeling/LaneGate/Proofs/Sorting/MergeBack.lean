import LaneGate.Proofs.Sorting.MergeFront
/-!
# A merge from the back computes `List.merge`

The mirror image of `LaneGate.Proofs.Sorting.MergeFront`: a merge of two neighbouring
sorted runs from the back writes their merge `List.merge` in place (`mergeHigh_eq`).

The views of a merge from the back are the array before the first run (`front`),
what is left of each run (`restA` in place, `restB` set aside) and the output written
downward so far together with the array past the runs (`written`). Each step puts the
last element of a rest, or a stretch of its back, in front of the output; it keeps
`Merges` because that element or stretch goes last in the merge of the rests (the
cuts `merge_append_back_left` and `merge_append_back_right`). When the second run is
down to its first element, which goes strictly before all that is left of the first
run, the merge moves the first run's rest up by one and puts that element below it.
-/

namespace LaneGate.Sorting

variable {α : Type}

/-! ### Stretches of written arrays -/

theorem slice_writeFrom_of_ge (a : Array α) (pos : Nat) (xs : List α) {start count : Nat}
    (hq : start + count ≤ pos) (h : pos + xs.length ≤ a.size) :
    slice (writeFrom a pos xs) start count = slice a start count := by
  rw [slice_eq, slice_eq, List.take_drop, List.take_drop, take_writeFrom_of_le a pos xs hq h]

/-- A stretch is the stretch one shorter followed by its last element. -/
theorem slice_eq_append_last (d : α) (a : Array α) (start count : Nat) (hc : 0 < count)
    (h : start + count ≤ a.size) :
    slice a start count = slice a start (count - 1) ++ [get d a (start + count - 1)] := by
  obtain ⟨k, rfl⟩ : ∃ k, count = k + 1 := ⟨count - 1, by omega⟩
  rw [← slice_append, show k + 1 - 1 = k by omega, show start + (k + 1) - 1 = start + k by omega,
    show 1 = 0 + 1 from rfl, slice_succ d _ _ _ (by omega), slice_zero]

theorem head?_slice (d : α) (a : Array α) (start count : Nat) (hc : 0 < count) (h : start < a.size) :
    (slice a start count).head? = some (get d a start) := by
  obtain ⟨k, rfl⟩ : ∃ k, count = k + 1 := ⟨count - 1, by omega⟩
  rw [slice_succ d _ _ _ h]
  rfl

theorem getLast?_slice (d : α) (a : Array α) (start count : Nat) (hc : 0 < count)
    (h : start + count ≤ a.size) :
    (slice a start count).getLast? = some (get d a (start + count - 1)) := by
  rw [slice_eq_append_last d a start count hc h, List.getLast?_concat]

theorem mem_head?_of_isPrefix {xs ys : List α} {b : α} (hp : xs <+: ys) (h : b ∈ xs.head?) :
    b ∈ ys.head? := by
  obtain ⟨t, rfl⟩ := hp
  cases xs with
  | nil => simp at h
  | cons x xs => simpa using h

namespace BackMerge

/-- The array before the first run. -/
def front (s : BackMerge α) : List α := s.work.toList.take s.baseA

/-- What is left of the first run, in place. -/
def restA (s : BackMerge α) : List α := slice s.work s.baseA s.lengthA

/-- What is left of the second run, set aside. -/
def restB (s : BackMerge α) : List α := slice s.temp 0 s.lengthB

/-- The output written downward so far and the array past the runs. -/
def written (s : BackMerge α) : List α := s.work.toList.drop (s.dest + 1).toNat

/-- The positions of a merge from the back: the first run's rest ends at its cursor,
the gap between it and the output is as long as what is left of the second run, which
is the front of what was set aside, and the output lies inside the array. -/
structure Fits (s : BackMerge α) : Prop where
  gap : s.dest = s.cursorA + s.lengthB
  endA : s.cursorA + 1 = s.baseA + s.lengthA
  tempB : s.cursorB + 1 = s.lengthB
  fitsB : s.lengthB ≤ s.temp.size
  fitsEnd : (s.dest + 1).toNat ≤ s.work.size

variable (d : α) {s : BackMerge α}

theorem Fits.withMinGallop (h : s.Fits) (m : Nat) : ({ s with minGallop := m } : BackMerge α).Fits :=
  ⟨h.gap, h.endA, h.tempB, h.fitsB, h.fitsEnd⟩

theorem length_restA (h : s.Fits) : s.restA.length = s.lengthA :=
  length_slice _ _ _ (by have := h.gap; have := h.endA; have := h.fitsEnd; omega)

theorem length_restB (h : s.Fits) : s.restB.length = s.lengthB :=
  length_slice _ _ _ (by have := h.fitsB; omega)

/-- Taking the first run's last element puts it in front of the output. -/
theorem takeA_views (h : s.Fits) (hA : 1 ≤ s.lengthA) :
    (takeA d s).Fits ∧ (takeA d s).front = s.front ∧
      s.restA = (takeA d s).restA ++ [get d s.work s.cursorA.toNat] ∧ (takeA d s).restB = s.restB ∧
      (takeA d s).written = get d s.work s.cursorA.toNat :: s.written := by
  obtain ⟨gap, endA, tempB, fitsB, fitsEnd⟩ := h
  have hw : s.dest.toNat + [get d s.work s.cursorA.toNat].length ≤ s.work.size := by simp; omega
  have hwrite : (takeA d s).work = writeFrom s.work s.dest.toNat [get d s.work s.cursorA.toNat] := by
    simp only [BackMerge.takeA, writeAt_of_nonneg _ (show 0 ≤ s.dest by omega)]
  refine ⟨⟨by simp [BackMerge.takeA]; omega, by simp [BackMerge.takeA]; omega, tempB, fitsB,
    by simp [BackMerge.takeA]; omega⟩, ?_, ?_, rfl, ?_⟩
  · simp only [front, hwrite]
    exact take_writeFrom_of_le (q := s.baseA) _ _ _ (by omega) hw
  · simp only [restA, hwrite]
    rw [slice_writeFrom_of_ge _ _ _ (by simp only [BackMerge.takeA]; omega) hw]
    simp only [BackMerge.takeA]
    rw [slice_eq_append_last d s.work s.baseA s.lengthA hA (by omega),
      show s.baseA + s.lengthA - 1 = s.cursorA.toNat by omega]
  · simp only [written, hwrite]
    rw [show ((takeA d s).dest + 1).toNat = s.dest.toNat by simp only [BackMerge.takeA]; omega,
      drop_writeFrom _ _ _ hw, show s.dest.toNat + [get d s.work s.cursorA.toNat].length =
        (s.dest + 1).toNat by simp; omega]
    rfl

/-- Taking the second run's last element puts it in front of the output. -/
theorem takeB_views (h : s.Fits) (hB : 1 ≤ s.lengthB) :
    (takeB d s).Fits ∧ (takeB d s).front = s.front ∧ (takeB d s).restA = s.restA ∧
      s.restB = (takeB d s).restB ++ [get d s.temp s.cursorB.toNat] ∧
      (takeB d s).written = get d s.temp s.cursorB.toNat :: s.written := by
  obtain ⟨gap, endA, tempB, fitsB, fitsEnd⟩ := h
  have hw : s.dest.toNat + [get d s.temp s.cursorB.toNat].length ≤ s.work.size := by simp; omega
  have hwrite : (takeB d s).work = writeFrom s.work s.dest.toNat [get d s.temp s.cursorB.toNat] := by
    simp only [BackMerge.takeB, writeAt_of_nonneg _ (show 0 ≤ s.dest by omega)]
  refine ⟨⟨by simp [BackMerge.takeB]; omega, endA, by simp [BackMerge.takeB]; omega,
    by simp [BackMerge.takeB]; omega, by simp [BackMerge.takeB]; omega⟩, ?_, ?_, ?_, ?_⟩
  · simp only [front, hwrite]
    exact take_writeFrom_of_le (q := s.baseA) _ _ _ (by omega) hw
  · simp only [restA, hwrite]
    rw [slice_writeFrom_of_ge _ _ _ (by simp only [BackMerge.takeB]; omega) hw]
    rfl
  · simp only [restB, BackMerge.takeB]
    rw [slice_eq_append_last d s.temp 0 s.lengthB hB (by omega), Nat.zero_add,
      show s.lengthB - 1 = s.cursorB.toNat by omega]
  · simp only [written, hwrite]
    rw [show ((takeB d s).dest + 1).toNat = s.dest.toNat by simp only [BackMerge.takeB]; omega,
      drop_writeFrom _ _ _ hw, show s.dest.toNat + [get d s.temp s.cursorB.toNat].length =
        (s.dest + 1).toNat by simp; omega]
    rfl

/-- Taking a stretch of the first run's back puts it in front of the output. -/
theorem takeManyA_views (h : s.Fits) {k : Nat} (hk : k ≤ s.lengthA) :
    (takeManyA s k).Fits ∧ (takeManyA s k).front = s.front ∧
      (takeManyA s k).restA = s.restA.take (s.lengthA - k) ∧ (takeManyA s k).restB = s.restB ∧
      (takeManyA s k).written = s.restA.drop (s.lengthA - k) ++ s.written := by
  obtain ⟨gap, endA, tempB, fitsB, fitsEnd⟩ := h
  have hlen : (slice s.work (s.cursorA - k + 1).toNat k).length = k := length_slice _ _ _ (by omega)
  have hw : (s.dest - k + 1).toNat + (slice s.work (s.cursorA - k + 1).toNat k).length ≤
      s.work.size := by omega
  refine ⟨⟨by simp [BackMerge.takeManyA]; omega, by simp [BackMerge.takeManyA]; omega, tempB, fitsB,
    by simp [BackMerge.takeManyA]; omega⟩, ?_, ?_, rfl, ?_⟩
  · simp only [front, BackMerge.takeManyA]
    exact take_writeFrom_of_le _ _ _ (by omega) hw
  · simp only [restA, BackMerge.takeManyA]
    rw [slice_writeFrom_of_ge _ _ _ (by omega) hw, slice_take _ _ _ _ (Nat.sub_le _ _)]
  · simp only [written, restA, BackMerge.takeManyA]
    rw [show (s.dest - k + 1).toNat = (s.dest - k + 1).toNat from rfl, drop_writeFrom _ _ _ hw, hlen,
      slice_drop, show s.baseA + (s.lengthA - k) = (s.cursorA - k + 1).toNat by omega,
      show s.lengthA - (s.lengthA - k) = k by omega,
      show (s.dest - k + 1).toNat + k = (s.dest + 1).toNat by omega]

/-- Taking a stretch of the second run's back puts it in front of the output. -/
theorem takeManyB_views (h : s.Fits) {k : Nat} (hk : k ≤ s.lengthB) :
    (takeManyB s k).Fits ∧ (takeManyB s k).front = s.front ∧ (takeManyB s k).restA = s.restA ∧
      (takeManyB s k).restB = s.restB.take (s.lengthB - k) ∧
      (takeManyB s k).written = s.restB.drop (s.lengthB - k) ++ s.written := by
  obtain ⟨gap, endA, tempB, fitsB, fitsEnd⟩ := h
  have hlen : (slice s.temp (s.cursorB - k + 1).toNat k).length = k := length_slice _ _ _ (by omega)
  have hw : (s.dest - k + 1).toNat + (slice s.temp (s.cursorB - k + 1).toNat k).length ≤
      s.work.size := by omega
  refine ⟨⟨by simp [BackMerge.takeManyB]; omega, endA, by simp [BackMerge.takeManyB]; omega,
    by simp [BackMerge.takeManyB]; omega, by simp [BackMerge.takeManyB]; omega⟩, ?_, ?_, ?_, ?_⟩
  · simp only [front, BackMerge.takeManyB]
    exact take_writeFrom_of_le _ _ _ (by omega) hw
  · simp only [restA, BackMerge.takeManyB]
    rw [slice_writeFrom_of_ge _ _ _ (by omega) hw]
  · simp only [restB, BackMerge.takeManyB]
    rw [slice_take _ _ _ _ (Nat.sub_le _ _)]
  · simp only [written, restB, BackMerge.takeManyB]
    rw [drop_writeFrom _ _ _ hw, hlen, slice_drop, Nat.zero_add,
      show s.lengthB - k = (s.cursorB - k + 1).toNat by omega,
      show s.lengthB - (s.cursorB - k + 1).toNat = k by omega,
      show (s.dest - k + 1).toNat + k = (s.dest + 1).toNat by omega]

/-- Ending by moving the second run's rest into the gap: the rests follow the front in
order. -/
theorem finish_restOfFirst (h : s.Fits) :
    (finish d s .restOfFirst).toList = s.front ++ s.restA ++ s.restB ++ s.written := by
  obtain ⟨gap, endA, tempB, fitsB, fitsEnd⟩ := h
  have hA : s.work.toList.take (s.baseA + s.lengthA) = s.front ++ s.restA := by
    rw [front, restA, slice_eq, List.take_add]
  simp only [BackMerge.finish]
  split
  · have hlen : (slice s.temp 0 s.lengthB).length = s.lengthB := length_slice _ _ _ (by omega)
    rw [writeFrom_toList _ _ _ (by omega), hlen,
      show (s.dest - ((s.lengthB - 1 : Nat) : Int)).toNat = s.baseA + s.lengthA by omega,
      show s.baseA + s.lengthA + s.lengthB = (s.dest + 1).toNat by omega, hA]
    rfl
  · have hB0 : s.restB = [] :=
      List.eq_nil_of_length_eq_zero (by rw [restB, length_slice _ _ _ (by omega)]; omega)
    rw [hB0, List.append_nil, written, show (s.dest + 1).toNat = s.baseA + s.lengthA by omega, ← hA,
      List.take_append_drop]

/-- Ending with the second run's first element alone left: it goes below the first
run's rest, which moves up by one. -/
theorem finish_lastOfFirst (h : s.Fits) (hB : s.lengthB = 1) :
    (finish d s .lastOfFirst).toList = s.front ++ s.restB ++ s.restA ++ s.written := by
  obtain ⟨gap, endA, tempB, fitsB, fitsEnd⟩ := h
  have hlen : (slice s.work (s.cursorA - s.lengthA + 1).toNat s.lengthA).length = s.lengthA :=
    length_slice _ _ _ (by omega)
  have hw : (s.dest - s.lengthA + 1).toNat +
      (slice s.work (s.cursorA - s.lengthA + 1).toNat s.lengthA).length ≤ s.work.size := by omega
  have hw' : (s.dest - s.lengthA).toNat + [get d s.temp s.cursorB.toNat].length ≤
      (writeFrom s.work (s.dest - s.lengthA + 1).toNat
        (slice s.work (s.cursorA - s.lengthA + 1).toNat s.lengthA)).size := by simp; omega
  have hrestB : s.restB = [get d s.temp s.cursorB.toNat] := by
    rw [restB, hB, show 1 = 0 + 1 from rfl, slice_succ d _ _ _ (by omega), slice_zero,
      show s.cursorB.toNat = 0 by omega]
  simp only [BackMerge.finish]
  rw [writeAt_of_nonneg _ (by omega), writeFrom_toList _ _ _ hw',
    take_writeFrom_of_le _ _ _ (by omega) hw,
    show (s.dest - s.lengthA).toNat + [get d s.temp s.cursorB.toNat].length =
      (s.dest - s.lengthA + 1).toNat by simp; omega,
    drop_writeFrom _ _ _ hw, hlen,
    show (s.dest - s.lengthA + 1).toNat + s.lengthA = (s.dest + 1).toNat by omega,
    show (s.dest - s.lengthA).toNat = s.baseA by omega,
    show (s.cursorA - s.lengthA + 1).toNat = s.baseA by omega, hrestB]
  simp only [front, restA, written, List.append_assoc, List.cons_append]

/-- What a merge from the back keeps towards its target: the front, the merge of the
two rests and the written part make the target; the rests are sorted, and the second
run's first element goes strictly before everything left of the first run, which the
merge may therefore put first. -/
structure Merges (key : α → Int) (target : List α) (s : BackMerge α) : Prop where
  fits : s.Fits
  sortedA : KeySorted key s.restA
  sortedB : KeySorted key s.restB
  firstB : ∀ a ∈ s.restA, ∀ b ∈ s.restB.head?, key b < key a
  merged : s.front ++ s.restA.merge s.restB (keyLE key) ++ s.written = target

variable {key : α → Int} {target : List α}

theorem Merges.withMinGallop (h : s.Merges key target) (m : Nat) :
    ({ s with minGallop := m } : BackMerge α).Merges key target :=
  ⟨h.fits.withMinGallop m, h.sortedA, h.sortedB, h.firstB, h.merged⟩

/-- The first run's last element may be output when everything left of the second run
goes strictly before it. -/
theorem Merges.takeA (h : s.Merges key target) (hA : 1 ≤ s.lengthA)
    (hlt : ∀ b ∈ s.restB, key b < key (get d s.work s.cursorA.toNat)) :
    (BackMerge.takeA d s).Merges key target := by
  obtain ⟨hfit, hf, hA', hB, hw⟩ := takeA_views d h.fits hA
  have hsA := h.sortedA
  rw [hA'] at hsA
  refine ⟨hfit, hsA.sublist (List.sublist_append_left _ _), hB ▸ h.sortedB,
    fun a ha b hb => h.firstB a (hA' ▸ List.mem_append_left _ ha) b (hB ▸ hb), ?_⟩
  rw [hf, hB, hw, ← h.merged, hA', merge_append_back_left key
    (fun x hx a ha => by rw [List.mem_singleton.1 ha]; exact hsA.le_last x (List.mem_append_left _ hx))
    (fun y hy a ha => by rw [List.mem_singleton.1 ha]; exact hlt y hy)]
  simp only [List.append_assoc, List.singleton_append]

/-- The second run's last element may be output when everything left of the first run
goes before it. -/
theorem Merges.takeB (h : s.Merges key target) (hB : 1 ≤ s.lengthB)
    (hle : ∀ a ∈ s.restA, key a ≤ key (get d s.temp s.cursorB.toNat)) :
    (BackMerge.takeB d s).Merges key target := by
  obtain ⟨hfit, hf, hA, hB', hw⟩ := takeB_views d h.fits hB
  have hsB := h.sortedB
  rw [hB'] at hsB
  refine ⟨hfit, hA ▸ h.sortedA, hsB.sublist (List.sublist_append_left _ _),
    fun a ha b hb => h.firstB a (hA ▸ ha) b (hB' ▸ mem_head?_of_isPrefix (List.prefix_append _ _) hb), ?_⟩
  rw [hf, hA, hw, ← h.merged, hB', merge_append_back_right key
    (fun x hx b hb => by rw [List.mem_singleton.1 hb]; exact hle x hx)]
  simp only [List.append_assoc, List.singleton_append]

/-- A stretch of the first run's back may be output when everything left of the second
run goes strictly before it. -/
theorem Merges.takeManyA (h : s.Merges key target) {k : Nat} (hk : k ≤ s.lengthA)
    (hlt : ∀ b ∈ s.restB, ∀ a ∈ s.restA.drop (s.lengthA - k), key b < key a) :
    (BackMerge.takeManyA s k).Merges key target := by
  obtain ⟨hfit, hf, hA, hB, hw⟩ := takeManyA_views h.fits hk
  have hsA := h.sortedA
  rw [← List.take_append_drop (s.lengthA - k) s.restA] at hsA
  refine ⟨hfit, hA ▸ h.sortedA.take _, hB ▸ h.sortedB,
    fun a ha b hb => h.firstB a (List.mem_of_mem_take (hA ▸ ha)) b (hB ▸ hb), ?_⟩
  rw [hf, hA, hB, hw, ← h.merged]
  conv => rhs; rw [← List.take_append_drop (s.lengthA - k) s.restA]
  rw [merge_append_back_left key (fun x hx a ha => (List.pairwise_append.1 hsA).2.2 x hx a ha)
    (fun y hy a ha => hlt y hy a ha)]
  simp only [List.append_assoc]

/-- A stretch of the second run's back may be output when everything left of the first
run goes before it. -/
theorem Merges.takeManyB (h : s.Merges key target) {k : Nat} (hk : k ≤ s.lengthB)
    (hle : ∀ a ∈ s.restA, ∀ b ∈ s.restB.drop (s.lengthB - k), key a ≤ key b) :
    (BackMerge.takeManyB s k).Merges key target := by
  obtain ⟨hfit, hf, hA, hB, hw⟩ := takeManyB_views h.fits hk
  refine ⟨hfit, hA ▸ h.sortedA, hB ▸ h.sortedB.take _,
    fun a ha b hb => h.firstB a (hA ▸ ha) b (mem_head?_of_isPrefix (List.take_prefix _ _) (hB ▸ hb)), ?_⟩
  rw [hf, hA, hB, hw, ← h.merged]
  conv => rhs; rw [← List.take_append_drop (s.lengthB - k) s.restB]
  rw [merge_append_back_right key hle]
  simp only [List.append_assoc]

theorem Merges.maybeTakeManyA (h : s.Merges key target) {k : Nat} (hk : k ≤ s.lengthA)
    (hlt : ∀ b ∈ s.restB, ∀ a ∈ s.restA.drop (s.lengthA - k), key b < key a) :
    (if k > 0 then BackMerge.takeManyA s k else s).Merges key target := by
  split
  · exact h.takeManyA hk hlt
  · exact h

theorem Merges.maybeTakeManyB (h : s.Merges key target) {k : Nat} (hk : k ≤ s.lengthB)
    (hle : ∀ a ∈ s.restA, ∀ b ∈ s.restB.drop (s.lengthB - k), key a ≤ key b) :
    (if k > 0 then BackMerge.takeManyB s k else s).Merges key target := by
  split
  · exact h.takeManyB hk hle
  · exact h

theorem rests_maybeTakeManyA (h : s.Fits) {k : Nat} (hk : k ≤ s.lengthA) :
    (if k > 0 then takeManyA s k else s).restA = s.restA.take (s.lengthA - k) ∧
      (if k > 0 then takeManyA s k else s).restB = s.restB := by
  split
  · exact ⟨(takeManyA_views h hk).2.2.1, (takeManyA_views h hk).2.2.2.1⟩
  · next hk0 =>
    rw [show k = 0 by omega, Nat.sub_zero, ← length_restA h, List.take_length]
    exact ⟨rfl, rfl⟩

theorem rests_maybeTakeManyB (h : s.Fits) {k : Nat} (hk : k ≤ s.lengthB) :
    (if k > 0 then takeManyB s k else s).restA = s.restA ∧
      (if k > 0 then takeManyB s k else s).restB = s.restB.take (s.lengthB - k) := by
  split
  · exact ⟨(takeManyB_views h hk).2.2.1, (takeManyB_views h hk).2.2.2.1⟩
  · next hk0 =>
    rw [show k = 0 by omega, Nat.sub_zero, ← length_restB h, List.take_length]
    exact ⟨rfl, rfl⟩

/-- A merge from the back that ends with a run used up, or with the second run's first
element alone left, has written its target. -/
theorem Merges.finish (h : s.Merges key target) {e : Ending}
    (hlast : e = .lastOfFirst → s.lengthB = 1)
    (hrest : e = .restOfFirst → s.lengthA = 0 ∨ s.lengthB = 0) :
    (BackMerge.finish d s e).toList = target := by
  rw [← h.merged]
  cases e with
  | restOfFirst =>
    rw [finish_restOfFirst d h.fits]
    rcases hrest rfl with h0 | h0
    · rw [show s.restA = [] from List.eq_nil_of_length_eq_zero (by rw [length_restA h.fits, h0])]
      simp
    · rw [show s.restB = [] from List.eq_nil_of_length_eq_zero (by rw [length_restB h.fits, h0])]
      simp
  | lastOfFirst =>
    have hB := hlast rfl
    obtain ⟨b, hb⟩ : ∃ b, s.restB = [b] := by
      rw [← length_restB h.fits] at hB
      exact List.length_eq_one_iff.1 hB
    have hlt : ∀ y ∈ s.restB, ∀ a ∈ s.restA, key y < key a := by
      intro y hy a ha
      rw [hb, List.mem_singleton] at hy
      exact h.firstB a ha y (by rw [hb, hy]; rfl)
    have := @merge_append_front_right α key s.restB s.restA [] hlt
    rw [List.append_nil, List.merge_right] at this
    rw [finish_lastOfFirst d h.fits hB, this]
    simp only [List.append_assoc]

/-- Two merges whose first runs have one rest have one last element there. -/
theorem get_cursorA_eq {t : BackMerge α} (hs : s.Fits) (ht : t.Fits) (hA : 1 ≤ s.lengthA)
    (hA' : 1 ≤ t.lengthA) (heq : s.restA = t.restA) :
    get d s.work s.cursorA.toNat = get d t.work t.cursorA.toNat := by
  have hlast := congrArg List.getLast? heq
  rw [(takeA_views d hs hA).2.2.1, (takeA_views d ht hA').2.2.1, List.getLast?_concat,
    List.getLast?_concat] at hlast
  exact Option.some.inj hlast

/-- What is left of either run is part of the target. -/
theorem Merges.mem_target (h : s.Merges key target) {x : α} (hx : x ∈ s.restA ∨ x ∈ s.restB) :
    x ∈ target := by
  rw [← h.merged]
  exact List.mem_append_left _ (List.mem_append_right _ (List.mem_merge.2 hx))

/-- How a merge from the back ends: its invariant kept, and its ending one that
`Merges.finish` accepts. -/
def Done (key : α → Int) (target : List α) (r : BackMerge α × Ending) : Prop :=
  r.1.Merges key target ∧ (r.2 = .lastOfFirst → r.1.lengthB = 1) ∧
    (r.2 = .restOfFirst → r.1.lengthA = 0 ∨ r.1.lengthB = 0)

variable (cmp : α → α → Float) {ok : α → Prop} (hcmp : Follows cmp key ok)
include hcmp

/-- A merge from the back, started with one element of the first run and two of the
second and with fuel for twice its elements, ends done. The induction is on the fuel,
as for the merge from the front. -/
theorem run_done (fuel : Nat) (s : BackMerge α) (ph : Phase) (h : s.Merges key target)
    (hok : ∀ x ∈ target, ok x) (hA : 1 ≤ s.lengthA) (hB : 2 ≤ s.lengthB)
    (hfuel : 2 * (s.lengthA + s.lengthB) + ph.weight ≤ fuel) :
    Done key target (run cmp d fuel s ph) := by
  induction fuel generalizing s ph with
  | zero => omega
  | succ fuel ih =>
    have hAl := (takeA_views d h.fits hA).2.2.1
    have hBl := (takeB_views d h.fits (by omega)).2.2.2.1
    have hlastA := (hAl ▸ h.sortedA).le_last
    have hlastB := (hBl ▸ h.sortedB).le_last
    have okA : ok (get d s.work s.cursorA.toNat) := hok _ (h.mem_target (.inl (by rw [hAl]; simp)))
    have okB : ok (get d s.temp s.cursorB.toNat) := hok _ (h.mem_target (.inr (by rw [hBl]; simp)))
    cases ph with
    | stepping winsA winsB =>
      simp only [run]
      split
      · -- the first run's last element goes strictly last
        next hb =>
        rw [hcmp _ _ okB okA, decide_eq_true_iff] at hb
        have h1 := h.takeA d hA fun b hb' => Int.lt_of_le_of_lt (hlastB b (hBl ▸ hb')) hb
        split
        · next h0 => exact ⟨h1, (by rintro ⟨⟩), fun _ => .inl (by simpa using h0)⟩
        · next hne =>
          have hA' : 1 ≤ (BackMerge.takeA d s).lengthA := by
            simp [BackMerge.takeA] at hne ⊢; omega
          have hf : 2 * (s.lengthA - 1 + s.lengthB) + 1 ≤ fuel := by
            simp only [Phase.weight] at hfuel; omega
          split
          · exact ih _ _ (h1.withMinGallop _) hA' hB (by simpa [Phase.weight, BackMerge.takeA])
          · exact ih _ _ h1 hA' hB (by simp [Phase.weight, BackMerge.takeA]; omega)
      · -- the second run's last element goes last
        next hb =>
        rw [hcmp _ _ okB okA, decide_eq_true_iff] at hb
        have h1 := h.takeB d (by omega) fun a ha =>
          Int.le_trans (hlastA a (hAl ▸ ha)) (Int.not_lt.1 hb)
        split
        · next hone => exact ⟨h1, fun _ => by simpa using hone, (by rintro ⟨⟩)⟩
        · next hne =>
          have hB' : 2 ≤ (BackMerge.takeB d s).lengthB := by
            simp [BackMerge.takeB] at hne ⊢; omega
          have hf : 2 * (s.lengthA + (s.lengthB - 1)) + 1 ≤ fuel := by
            simp only [Phase.weight] at hfuel; omega
          split
          · exact ih _ _ (h1.withMinGallop _) hA hB' (by simpa [Phase.weight, BackMerge.takeB])
          · exact ih _ _ h1 hA hB' (by simp [Phase.weight, BackMerge.takeB]; omega)
    | galloping winsA winsB first =>
      rw [run]
      split
      · exact ih _ _ (h.withMinGallop _) hA hB (by simp [Phase.weight] at hfuel ⊢; omega)
      · extract_lets X kA wA s1 s2 kB wB s3 s4
        have hX : X.Merges key target := h.withMinGallop _
        have hcutA : CutRight key X.restA (get d X.temp X.cursorB.toNat) kA :=
          gallopRight_cut cmp d key hcmp X.work (get d X.temp X.cursorB.toNat) (X.lengthA - 1)
            (by have := hX.fits.gap; have := hX.fits.endA; have := hX.fits.fitsEnd; omega)
            hX.sortedA (by simp [X]; omega) okB fun y hy => hok _ (hX.mem_target (.inl hy))
        obtain ⟨hkA, hcA1, hcA2⟩ := hcutA
        rw [length_restA hX.fits] at hkA
        have hwA : X.lengthA - wA = kA := by simp only [wA]; omega
        have h1 : s1.Merges key target := hX.maybeTakeManyA (Nat.sub_le _ _) fun b hb a ha =>
          Int.lt_of_le_of_lt (hlastB b (hBl ▸ hb)) (hcA2 a (hwA ▸ ha))
        obtain ⟨h1A, h1B⟩ := rests_maybeTakeManyA hX.fits (Nat.sub_le X.lengthA kA)
        have h1lA : s1.lengthA = s.lengthA - wA := lengthA_maybeTakeManyA wA
        have h1lB : s1.lengthB = s.lengthB := lengthB_maybeTakeManyA wA
        split
        · next hzero => exact ⟨h1, (by rintro ⟨⟩), fun _ => .inl (by simpa using hzero.2)⟩
        next hnot0 =>
        have hb0 : get d s1.temp s1.cursorB.toNat = get d X.temp X.cursorB.toNat := by
          simp only [s1]; split <;> rfl
        have h2 : s2.Merges key target := h1.takeB d (by omega) fun a ha => by
          rw [hb0]; exact hcA1 a (hwA ▸ h1A ▸ ha)
        have h2lA : s2.lengthA = s1.lengthA := rfl
        have h2lB : s2.lengthB = s.lengthB - 1 := by simp [s2, BackMerge.takeB, h1lB]
        split
        · next hone => exact ⟨h2, fun _ => by simpa using hone, (by rintro ⟨⟩)⟩
        next hB2 =>
        have hA2 : 1 ≤ s2.lengthA := by
          simp only [beq_iff_eq, not_and, gt_iff_lt] at hnot0; simp only [wA] at h1lA hnot0; omega
        have h2Al := (takeA_views d h2.fits hA2).2.2.1
        have hcutB : CutLeft key s2.restB (get d s2.work s2.cursorA.toNat) kB :=
          gallopLeft_cut cmp d key hcmp s2.temp (get d s2.work s2.cursorA.toNat) (s2.lengthB - 1)
            (by have := h2.fits.fitsB; omega) h2.sortedB (by simp only [beq_iff_eq] at hB2; omega)
            (hok _ (h2.mem_target (.inl (by rw [h2Al]; simp)))) fun y hy => hok _ (h2.mem_target (.inr hy))
        obtain ⟨hkB, hcB1, hcB2⟩ := hcutB
        rw [length_restB h2.fits] at hkB
        have hwB : s2.lengthB - wB = kB := by simp only [wB]; omega
        have hlast2 := (h2Al ▸ h2.sortedA).le_last
        have h3 : s3.Merges key target := h2.maybeTakeManyB (Nat.sub_le _ _) fun a ha b hb =>
          Int.le_trans (hlast2 a (h2Al ▸ ha)) (hcB2 b (hwB ▸ hb))
        obtain ⟨h3A, h3B⟩ := rests_maybeTakeManyB h2.fits (Nat.sub_le s2.lengthB kB)
        have h3lA : s3.lengthA = s2.lengthA := lengthA_maybeTakeManyB wB
        have h3lB : s3.lengthB = s2.lengthB - wB := lengthB_maybeTakeManyB wB
        split
        · next hone => exact ⟨h3, fun _ => by simpa using hone.2, (by rintro ⟨⟩)⟩
        split
        · next hzero => exact ⟨h3, (by rintro ⟨⟩), fun _ => .inr (by simpa using hzero.2)⟩
        next hnot1 hnotB0 =>
        have ha0 : get d s3.work s3.cursorA.toNat = get d s2.work s2.cursorA.toNat :=
          get_cursorA_eq d h3.fits h2.fits (by omega) hA2 h3A
        have h4 : s4.Merges key target := h3.takeA d (by omega) fun b hb => by
          rw [ha0]; exact hcB1 b (hwB ▸ h3B ▸ hb)
        have h4lA : s4.lengthA = s3.lengthA - 1 := rfl
        have h4lB : s4.lengthB = s3.lengthB := rfl
        split
        · next h0 => exact ⟨h4, (by rintro ⟨⟩), fun _ => .inl (by simpa using h0)⟩
        · next hnot =>
          simp only [beq_iff_eq, not_and, gt_iff_lt] at hnot hnot1 hnotB0 hB2
          have hXl : X.lengthA = s.lengthA ∧ X.lengthB = s.lengthB := ⟨rfl, rfl⟩
          have hw : (Phase.galloping winsA winsB first).weight = 1 := rfl
          have hw' : (Phase.galloping wA wB false).weight = 1 := rfl
          refine ih _ _ h4 (by omega) (by omega) ?_
          omega

end BackMerge

section Keyed

variable (cmp : α → α → Float) (d : α) (key : α → Int) {ok : α → Prop} (hcmp : Follows cmp key ok)
include hcmp

/-- A merge from the back of two neighbouring sorted runs writes their merge in place,
under the same trimming as a merge from the front (`mergeLow_eq`). -/
theorem mergeHigh_eq (work : Array α) (minGallop : Nat) {baseA lengthA baseB lengthB : Nat}
    (hAB : baseB = baseA + lengthA) (hB : baseB + lengthB ≤ work.size) (hA1 : 1 ≤ lengthA)
    (hB1 : 1 ≤ lengthB) (hsA : KeySorted key (slice work baseA lengthA))
    (hsB : KeySorted key (slice work baseB lengthB))
    (hfirst : ∀ a ∈ slice work baseA lengthA, key (get d work baseB) < key a)
    (hlast : ∀ b ∈ slice work baseB lengthB, ∀ z ∈ (slice work baseA lengthA).getLast?,
      key b < key z) (hok : ∀ x ∈ work.toList, ok x) :
    (mergeHigh cmp d work minGallop baseA lengthA baseB lengthB).1.toList =
      work.toList.take baseA ++ (slice work baseA lengthA).merge (slice work baseB lengthB) (keyLE key) ++
        work.toList.drop (baseB + lengthB) := by
  have hB' : slice (work.extract baseB (baseB + lengthB)) 0 lengthB = slice work baseB lengthB :=
    slice_extract work baseB lengthB
  have h0 : BackMerge.Merges key (work.toList.take baseA ++
      (slice work baseA lengthA).merge (slice work baseB lengthB) (keyLE key) ++
        work.toList.drop (baseB + lengthB))
      ⟨work, work.extract baseB (baseB + lengthB), (baseB + lengthB - 1 : Nat), (lengthB - 1 : Nat),
        (baseA + lengthA - 1 : Nat), lengthA, lengthB, minGallop, baseA⟩ := by
    refine ⟨⟨by dsimp only; omega, by dsimp only; omega, by dsimp only; omega, by simp; omega,
      by dsimp only; omega⟩, hsA, ?_, ?_, ?_⟩
    · simpa only [BackMerge.restB, hB'] using hsB
    · intro a ha b hb
      simp only [BackMerge.restB, hB', head?_slice d work baseB lengthB hB1 (by omega),
        Option.mem_def, Option.some.injEq] at hb
      exact hb ▸ hfirst a ha
    · simp only [BackMerge.front, BackMerge.restA, BackMerge.restB, BackMerge.written, hB']
      rw [show (((baseB + lengthB - 1 : Nat) : Int) + 1).toNat = baseB + lengthB by omega]
  have h1 := h0.takeA d hA1 fun b hb => hlast b (hB' ▸ hb) _ (by
    rw [getLast?_slice d work baseA lengthA hA1 (by omega)]
    exact congrArg some (congrArg (get d work) (by simp)))
  simp only [mergeHigh]
  split
  · next h0A => exact h1.finish d (by rintro ⟨⟩) fun _ => .inl (by simpa using h0A)
  next hA0 =>
  split
  · next hone => exact h1.finish d (fun _ => by simpa using hone) (by rintro ⟨⟩)
  next hne =>
  simp only [beq_iff_eq] at hA0 hne
  have hr := BackMerge.run_done d cmp hcmp (2 * (lengthA + lengthB) + 4) _ (.stepping 0 0) h1
    (fun x hx => hok x (mem_of_mem_merged hx))
    (by simp only [BackMerge.takeA] at hA0 ⊢; omega) (by simp only [BackMerge.takeA] at hne ⊢; omega)
    (by simp only [BackMerge.takeA, Phase.weight]; omega)
  exact hr.1.finish d hr.2.1 hr.2.2

end Keyed

end LaneGate.Sorting
