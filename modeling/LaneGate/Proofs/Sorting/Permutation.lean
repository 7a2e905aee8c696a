import LaneGate.Sorting
/-!
# Sorting keeps every element

`Sorting.sort` returns a rearrangement of its input, whatever the comparison does:
nothing is lost, nothing is duplicated, and the element that stands in for
positions past the end is never written. The comparison's verdicts are never
looked at here; what is proved is that every write of the sort moves elements
around within the bounds of the array.

The proof views every array as the list of its elements and every step as a write
of a list at a position (`writeFrom_toList`). Each stage carries an invariant:

* a merge from the front keeps the output written so far, the rest of the first
  run (copied aside) and the array from the second run on, which together are a
  rearrangement of the array before the merge (`FrontMerge.Sound`); the gap between
  output and second run is exactly as long as what is left of the first run;
* a merge from the back is the mirror image (`BackMerge.Sound`);
* the sorter's stack of runs is a chain of adjacent stretches from the start of the
  array (`Chain`), so each merge is of two neighbouring runs inside the array.

None of these needs the fuel to suffice: a merge or a collapse cut short leaves a
rearrangement too.
-/

namespace LaneGate.Sorting

variable {α : Type}

/-! ### Writes as lists -/

@[simp] theorem size_writeFrom (a : Array α) (pos : Nat) (xs : List α) :
    (writeFrom a pos xs).size = a.size := by
  induction xs generalizing a pos with
  | nil => rfl
  | cons x xs ih => simp [writeFrom, ih]

/-- Writing a list inside the array replaces the stretch it covers. -/
theorem writeFrom_toList (a : Array α) (pos : Nat) (xs : List α) (h : pos + xs.length ≤ a.size) :
    (writeFrom a pos xs).toList =
      a.toList.take pos ++ xs ++ a.toList.drop (pos + xs.length) := by
  induction xs generalizing a pos with
  | nil => simp [writeFrom]
  | cons x xs ih =>
    simp only [List.length_cons] at h
    have hpos : pos < a.toList.length := by simp; omega
    have hset : (a.setIfInBounds pos x).toList = a.toList.take pos ++ x :: a.toList.drop (pos + 1) := by
      rw [Array.toList_setIfInBounds, List.set_eq_take_append_cons_drop, if_pos hpos]
    have hlen : (a.toList.take pos).length = pos := by simp; omega
    have hfront : (a.toList.take pos).take (pos + 1) = a.toList.take pos :=
      List.take_of_length_le (by omega)
    have hback : (a.toList.take pos).drop (pos + (xs.length + 1)) = [] :=
      List.drop_of_length_le (by omega)
    rw [writeFrom, ih _ _ (by simp; omega), hset, List.take_append, List.drop_append, hlen]
    simp [hfront, hback, List.drop_drop, Nat.add_comm, Nat.add_left_comm]

theorem setIfInBounds_eq_writeFrom (a : Array α) (i : Nat) (x : α) :
    a.setIfInBounds i x = writeFrom a i [x] := rfl

theorem get_eq_getElem (d : α) (a : Array α) (i : Nat) (h : i < a.toList.length) :
    get d a i = a.toList[i] := by
  simp [get, Array.getD_eq_getD_getElem?, Array.getElem?_eq_getElem (by simpa using h)]

theorem slice_eq (a : Array α) (start count : Nat) :
    slice a start count = (a.toList.drop start).take count := by
  simp [slice, List.extract_eq_take_drop]

theorem length_slice (a : Array α) (start count : Nat) (h : start + count ≤ a.size) :
    (slice a start count).length = count := by
  simp [slice_eq]; omega

/-- A stretch of the array is its first element followed by the rest of it. -/
theorem slice_succ (d : α) (a : Array α) (start count : Nat) (h : start < a.size) :
    slice a start (count + 1) = get d a start :: slice a (start + 1) count := by
  rw [slice_eq, slice_eq, get_eq_getElem d a start (by simpa using h),
    List.drop_eq_getElem_cons (by simpa using h)]
  rfl

/-- Two adjacent stretches make one. -/
@[simp] theorem slice_zero (a : Array α) (start : Nat) : slice a start 0 = [] := by
  simp [slice_eq]

theorem slice_append (a : Array α) (start k m : Nat) :
    slice a start k ++ slice a (start + k) m = slice a start (k + m) := by
  simp only [slice_eq, List.take_add, List.drop_drop]

theorem take_writeFrom (a : Array α) (pos : Nat) (xs : List α) (h : pos + xs.length ≤ a.size) :
    (writeFrom a pos xs).toList.take (pos + xs.length) = a.toList.take pos ++ xs := by
  have hlen : (a.toList.take pos ++ xs).length = pos + xs.length := by simp; omega
  rw [writeFrom_toList a pos xs h, ← hlen, List.take_left]

theorem take_writeFrom_of_le (a : Array α) (pos : Nat) (xs : List α) {q : Nat} (hq : q ≤ pos)
    (h : pos + xs.length ≤ a.size) :
    (writeFrom a pos xs).toList.take q = a.toList.take q := by
  have hlen : (a.toList.take pos).length = pos := by simp; omega
  rw [writeFrom_toList a pos xs h, List.append_assoc, List.take_append_of_le_length (by omega),
    List.take_take, Nat.min_eq_left hq]

theorem drop_writeFrom_of_le (a : Array α) (pos : Nat) (xs : List α) {q : Nat}
    (hq : pos + xs.length ≤ q) (h : pos + xs.length ≤ a.size) :
    (writeFrom a pos xs).toList.drop q = a.toList.drop q := by
  have hlen : (a.toList.take pos ++ xs).length = pos + xs.length := by simp; omega
  rw [writeFrom_toList a pos xs h, List.drop_append, hlen, List.drop_of_length_le (by omega),
    List.nil_append, List.drop_drop, Nat.add_sub_cancel' hq]

theorem drop_writeFrom (a : Array α) (pos : Nat) (xs : List α) (h : pos + xs.length ≤ a.size) :
    (writeFrom a pos xs).toList.drop pos = xs ++ a.toList.drop (pos + xs.length) := by
  have hlen : (a.toList.take pos).length = pos := by simp; omega
  rw [writeFrom_toList a pos xs h, List.append_assoc, List.drop_append, hlen, Nat.sub_self,
    List.drop_zero, List.drop_of_length_le (by omega), List.nil_append]

/-! ### Where a search lands -/

section Search

variable (cmp : α → α → Float) (d : α)

/-- A widened search step never goes past its bound. -/
theorem widen_snd_le (probe : Nat → Bool) (maxOfs fuel lastOfs offset : Nat) :
    (widen probe maxOfs fuel lastOfs offset).2 ≤ maxOfs := by
  induction fuel generalizing lastOfs offset with
  | zero => exact Nat.min_le_right _ _
  | succ fuel ih =>
    simp only [widen]
    split
    · exact ih _ _
    · exact Nat.min_le_right _ _

theorem searchLeft_le (a : Array α) (key : α) (base lo hi : Nat) :
    searchLeft cmp d a key base lo hi ≤ hi := by
  fun_induction searchLeft cmp d a key base lo hi with
  | case1 lo hi hlt m _ ih => exact ih
  | case2 lo hi hlt m _ ih => omega
  | case3 lo hi _ => exact Nat.le_refl hi

theorem searchRight_le (a : Array α) (key : α) (base lo hi : Nat) :
    searchRight cmp d a key base lo hi ≤ hi := by
  fun_induction searchRight cmp d a key base lo hi with
  | case1 lo hi hlt m _ ih => omega
  | case2 lo hi hlt m _ ih => exact ih
  | case3 lo hi _ => exact Nat.le_refl hi

/-- A gallop from a hint inside the stretch never counts past its end. -/
theorem gallopLeft_le (a : Array α) (key : α) (base length hint : Nat) (h : hint ≤ length) :
    gallopLeft cmp d a key base length hint ≤ length := by
  dsimp only [gallopLeft]
  split
  · -- galloping up: the search ends at most `maxOfs = length - hint` past the hint
    refine Nat.le_trans (searchLeft_le cmp d a key base _ _) ?_
    exact Nat.add_le_of_le_sub h (widen_snd_le _ _ _ _ _)
  · -- galloping down: the search ends at the hint at the latest
    exact Nat.le_trans (searchLeft_le cmp d a key base _ _) (Nat.le_trans (Nat.sub_le _ _) h)

theorem gallopRight_le (a : Array α) (key : α) (base length hint : Nat) (h : hint ≤ length) :
    gallopRight cmp d a key base length hint ≤ length := by
  dsimp only [gallopRight]
  split
  · exact Nat.le_trans (searchRight_le cmp d a key base _ _) (Nat.le_trans (Nat.sub_le _ _) h)
  · refine Nat.le_trans (searchRight_le cmp d a key base _ _) ?_
    exact Nat.add_le_of_le_sub h (widen_snd_le _ _ _ _ _)

end Search

/-- The array's elements from a position on: a stretch, then the rest. -/
theorem drop_eq_slice_append (a : Array α) (start count : Nat) :
    a.toList.drop start = slice a start count ++ a.toList.drop (start + count) := by
  rw [slice_eq, ← List.drop_drop, List.take_append_drop]

/-- Writing a rearrangement of a stretch over that stretch rearranges the array. -/
theorem writeFrom_perm (a : Array α) (pos : Nat) {xs : List α} (h : pos + xs.length ≤ a.size)
    (hp : xs.Perm (slice a pos xs.length)) : (writeFrom a pos xs).toList.Perm a.toList := by
  rw [writeFrom_toList a pos xs h]
  conv => rhs; rw [← List.take_append_drop pos a.toList, drop_eq_slice_append a pos xs.length]
  rw [List.append_assoc]
  exact (hp.append_right _).append_left _

/-! ### A merge from the front -/

namespace FrontMerge

/-- What a merge from the front keeps of the array `o` it started from: the output
written so far, the part of the first run still aside and the array from the second
run's next element on are a rearrangement of `o`. The gap between the output and the
second run is as long as what is left of the first run, and the rests of both runs
lie inside their arrays. -/
structure Sound (o : List α) (s : FrontMerge α) : Prop where
  gap : s.dest + s.lengthA = s.cursorB
  fitsB : s.cursorB + s.lengthB ≤ s.work.size
  fitsA : s.cursorA + s.lengthA ≤ s.temp.size
  perm : (s.work.toList.take s.dest ++ slice s.temp s.cursorA s.lengthA ++
    s.work.toList.drop s.cursorB).Perm o

variable (d : α) {o : List α} {s : FrontMerge α}

theorem Sound.takeB (h : s.Sound o) (hB : 1 ≤ s.lengthB) : (takeB d s).Sound o := by
  obtain ⟨gap, fitsB, fitsA, perm⟩ := h
  have hcb : s.cursorB < s.work.toList.length := by simp; omega
  have hw : s.dest + [get d s.work s.cursorB].length ≤ s.work.size := by simp; omega
  refine ⟨by simp [FrontMerge.takeB]; omega, by simp [FrontMerge.takeB]; omega, fitsA, ?_⟩
  simp only [FrontMerge.takeB, setIfInBounds_eq_writeFrom]
  rw [show s.dest + 1 = s.dest + [get d s.work s.cursorB].length from rfl, take_writeFrom _ _ _ hw,
    drop_writeFrom_of_le _ _ _ (by simp; omega) hw]
  rw [List.drop_eq_getElem_cons hcb, ← get_eq_getElem d _ _ hcb] at perm
  refine List.Perm.trans ?_ perm
  simpa only [List.append_assoc, List.singleton_append, List.cons_append, List.nil_append] using
    (@List.perm_middle _ _ (slice s.temp s.cursorA s.lengthA) _).symm.append_left _

theorem Sound.takeA (h : s.Sound o) (hA : 1 ≤ s.lengthA) : (takeA d s).Sound o := by
  obtain ⟨gap, fitsB, fitsA, perm⟩ := h
  have hw : s.dest + [get d s.temp s.cursorA].length ≤ s.work.size := by simp; omega
  refine ⟨by simp [FrontMerge.takeA]; omega, by simp [FrontMerge.takeA]; omega,
    by simp [FrontMerge.takeA]; omega, ?_⟩
  simp only [FrontMerge.takeA, setIfInBounds_eq_writeFrom]
  rw [show s.dest + 1 = s.dest + [get d s.temp s.cursorA].length from rfl, take_writeFrom _ _ _ hw,
    drop_writeFrom_of_le _ _ _ (by simp; omega) hw]
  rw [show s.lengthA = (s.lengthA - 1) + 1 by omega, slice_succ d _ _ _ (by omega)] at perm
  simpa only [List.append_assoc, List.singleton_append, List.cons_append, List.nil_append] using perm

theorem Sound.takeManyA (h : s.Sound o) {k : Nat} (hk : k ≤ s.lengthA) : (takeManyA s k).Sound o := by
  obtain ⟨gap, fitsB, fitsA, perm⟩ := h
  have hlen : (slice s.temp s.cursorA k).length = k := length_slice _ _ _ (by omega)
  have hw : s.dest + (slice s.temp s.cursorA k).length ≤ s.work.size := by omega
  refine ⟨by simp [FrontMerge.takeManyA]; omega, by simp [FrontMerge.takeManyA]; omega,
    by simp [FrontMerge.takeManyA]; omega, ?_⟩
  simp only [FrontMerge.takeManyA]
  rw [show s.dest + k = s.dest + (slice s.temp s.cursorA k).length by rw [hlen],
    take_writeFrom _ _ _ hw, drop_writeFrom_of_le _ _ _ (by omega) hw]
  rw [← Nat.add_sub_cancel' hk, ← slice_append] at perm
  simpa only [List.append_assoc] using perm

theorem Sound.takeManyB (h : s.Sound o) {k : Nat} (hk : k ≤ s.lengthB) : (takeManyB s k).Sound o := by
  obtain ⟨gap, fitsB, fitsA, perm⟩ := h
  have hlen : (slice s.work s.cursorB k).length = k := length_slice _ _ _ (by omega)
  have hw : s.dest + (slice s.work s.cursorB k).length ≤ s.work.size := by omega
  refine ⟨by simp [FrontMerge.takeManyB]; omega, by simp [FrontMerge.takeManyB]; omega, fitsA, ?_⟩
  simp only [FrontMerge.takeManyB]
  rw [show s.dest + k = s.dest + (slice s.work s.cursorB k).length by rw [hlen],
    take_writeFrom _ _ _ hw, drop_writeFrom_of_le _ _ _ (by omega) hw]
  rw [drop_eq_slice_append s.work s.cursorB k] at perm
  refine List.Perm.trans ?_ perm
  simpa only [List.append_assoc] using
    ((@List.perm_append_comm _ (slice s.work s.cursorB k)
      (slice s.temp s.cursorA s.lengthA)).append_right
      (s.work.toList.drop (s.cursorB + k))).append_left (s.work.toList.take s.dest)

/-- The array a merge from the front ends with is a rearrangement of the one it
started from, provided the first run's last element is what is left of it when the
merge ends by putting that element last. -/
theorem Sound.finish (h : s.Sound o) {e : Ending} (he : e = .lastOfFirst → s.lengthA = 1) :
    (FrontMerge.finish d s e).toList.Perm o := by
  obtain ⟨gap, fitsB, fitsA, perm⟩ := h
  cases e with
  | restOfFirst =>
    have hlen : (slice s.temp s.cursorA s.lengthA).length = s.lengthA := length_slice _ _ _ fitsA
    rw [FrontMerge.finish, writeFrom_toList s.work s.dest _ (by rw [hlen]; omega), hlen, gap]
    exact perm
  | lastOfFirst =>
    have hA := he rfl
    have hlen : (slice s.work s.cursorB s.lengthB).length = s.lengthB := length_slice _ _ _ fitsB
    have hw : s.dest + (slice s.work s.cursorB s.lengthB).length ≤ s.work.size := by omega
    have hfin : (FrontMerge.finish d s .lastOfFirst).toList = s.work.toList.take s.dest ++
        slice s.work s.cursorB s.lengthB ++ [get d s.temp s.cursorA] ++
        s.work.toList.drop (s.cursorB + s.lengthB) := by
      have hw' : s.dest + s.lengthB + [get d s.temp s.cursorA].length ≤
          (writeFrom s.work s.dest (slice s.work s.cursorB s.lengthB)).size := by simp; omega
      rw [FrontMerge.finish, setIfInBounds_eq_writeFrom, writeFrom_toList _ _ _ hw']
      rw [show s.dest + s.lengthB = s.dest + (slice s.work s.cursorB s.lengthB).length by rw [hlen],
        take_writeFrom _ _ _ hw, drop_writeFrom_of_le _ _ _ (Nat.le_add_right _ _) hw]
      simp only [List.length_singleton, hlen]
      rw [show s.dest + s.lengthB + 1 = s.cursorB + s.lengthB by omega]
    have hold : s.work.toList.take s.dest ++ slice s.temp s.cursorA s.lengthA ++
        s.work.toList.drop s.cursorB = s.work.toList.take s.dest ++ [get d s.temp s.cursorA] ++
        (slice s.work s.cursorB s.lengthB ++ s.work.toList.drop (s.cursorB + s.lengthB)) := by
      rw [hA, show 1 = 0 + 1 from rfl, slice_succ d _ _ _ (by omega), slice_zero,
        ← drop_eq_slice_append]
    rw [hfin]
    rw [hold] at perm
    refine List.Perm.trans ?_ perm
    simpa only [List.append_assoc, List.singleton_append, List.cons_append, List.nil_append] using
      (@List.perm_middle _ _ (slice s.work s.cursorB s.lengthB) _).append_left _

/-- How a merge from the front may end: sound, and with exactly one element of the
first run left when it ends by putting that element last. -/
def Ends (o : List α) (r : FrontMerge α × Ending) : Prop :=
  r.1.Sound o ∧ (r.2 = .lastOfFirst → r.1.lengthA = 1)

/-- The gallop threshold plays no part in soundness. -/
theorem Sound.withMinGallop (h : s.Sound o) (m : Nat) : ({ s with minGallop := m } : FrontMerge α).Sound o :=
  ⟨h.gap, h.fitsB, h.fitsA, h.perm⟩

theorem Sound.maybeTakeManyA (h : s.Sound o) {k : Nat} (hk : k ≤ s.lengthA) :
    (if k > 0 then FrontMerge.takeManyA s k else s).Sound o := by
  split
  · exact h.takeManyA hk
  · exact h

theorem Sound.maybeTakeManyB (h : s.Sound o) {k : Nat} (hk : k ≤ s.lengthB) :
    (if k > 0 then FrontMerge.takeManyB s k else s).Sound o := by
  split
  · exact h.takeManyB hk
  · exact h

theorem lengthA_maybeTakeManyA (k : Nat) :
    (if k > 0 then takeManyA s k else s).lengthA = s.lengthA - k := by
  split
  · rfl
  · simp_all

theorem lengthB_maybeTakeManyA (k : Nat) :
    (if k > 0 then takeManyA s k else s).lengthB = s.lengthB := by
  split <;> rfl

theorem lengthA_maybeTakeManyB (k : Nat) :
    (if k > 0 then takeManyB s k else s).lengthA = s.lengthA := by
  split <;> rfl

theorem lengthB_maybeTakeManyB (k : Nat) :
    (if k > 0 then takeManyB s k else s).lengthB = s.lengthB - k := by
  split
  · rfl
  · simp_all

variable (cmp : α → α → Float)

/-- A merge from the front, started with at least two elements of the first run and
one of the second, ends sound, however its comparisons go and whatever its fuel. The
induction is on the fuel; each step takes elements only from a side that has them. -/
theorem run_ends (fuel : Nat) (s : FrontMerge α) (ph : Phase) (h : s.Sound o)
    (hA : 2 ≤ s.lengthA) (hB : 1 ≤ s.lengthB) : Ends o (run cmp d fuel s ph) := by
  induction fuel generalizing s ph with
  | zero => exact ⟨h, nofun⟩
  | succ fuel ih =>
    cases ph with
    | stepping winsA winsB =>
      simp only [run]
      split
      · have h1 := h.takeB d hB
        split
        · exact ⟨h1, nofun⟩
        · next hne =>
          have hB' : 1 ≤ (takeB d s).lengthB := by simp at hne; omega
          split
          · exact ih _ _ (h1.withMinGallop _) hA hB'
          · exact ih _ _ h1 hA hB'
      · have h1 := h.takeA d (by omega)
        split
        · next hone => exact ⟨h1, fun _ => by simpa using hone⟩
        · next hne =>
          have hA' : 2 ≤ (takeA d s).lengthA := by simp [FrontMerge.takeA] at hne ⊢; omega
          split
          · exact ih _ _ (h1.withMinGallop _) hA' hB
          · exact ih _ _ h1 hA' hB
    | galloping winsA winsB first =>
      rw [run]
      split
      · exact ih _ _ (h.withMinGallop _) hA hB
      · extract_lets X kA s1 s2 kB s3 s4
        have hX : X.Sound o := h.withMinGallop _
        have hkA : kA ≤ X.lengthA :=
          gallopRight_le cmp d X.temp (get d X.work X.cursorB) X.cursorA X.lengthA 0 (Nat.zero_le _)
        have h1 : s1.Sound o := hX.maybeTakeManyA hkA
        have h1A : s1.lengthA = s.lengthA - kA := lengthA_maybeTakeManyA kA
        have h1B : s1.lengthB = s.lengthB := lengthB_maybeTakeManyA kA
        split
        · next hone => exact ⟨h1, fun _ => by simpa using hone.2⟩
        split
        · exact ⟨h1, nofun⟩
        next hnot1 hnot0 =>
        have h1A2 : 2 ≤ s1.lengthA := by simp only [beq_iff_eq] at hnot1 hnot0; omega
        have h2 : s2.Sound o := h1.takeB d (by omega)
        have h2A : s2.lengthA = s1.lengthA := rfl
        have h2B : s2.lengthB = s1.lengthB - 1 := rfl
        split
        · exact ⟨h2, nofun⟩
        next hB2 =>
        have hkB : kB ≤ s2.lengthB :=
          gallopLeft_le cmp d s2.work (get d s2.temp s2.cursorA) s2.cursorB s2.lengthB 0 (Nat.zero_le _)
        have h3 : s3.Sound o := h2.maybeTakeManyB hkB
        have h3A : s3.lengthA = s2.lengthA := lengthA_maybeTakeManyB kB
        have h3B : s3.lengthB = s2.lengthB - kB := lengthB_maybeTakeManyB kB
        split
        · exact ⟨h3, nofun⟩
        next hnotB =>
        have h3B1 : 1 ≤ s3.lengthB := by simp only [beq_iff_eq] at hB2 hnotB; omega
        have h4 : s4.Sound o := h3.takeA d (by omega)
        have h4A : s4.lengthA = s3.lengthA - 1 := rfl
        split
        · next hone => exact ⟨h4, fun _ => by simpa using hone⟩
        · next hnot =>
          simp only [beq_iff_eq] at hnot
          exact ih _ _ h4 (by omega) h3B1

end FrontMerge

/-- A merge from the front of two neighbouring runs inside the array, neither empty,
rearranges the array. -/
theorem mergeLow_perm (cmp : α → α → Float) (d : α) (work : Array α) (minGallop : Nat)
    {baseA lengthA baseB lengthB : Nat} (hAB : baseB = baseA + lengthA)
    (hB : baseB + lengthB ≤ work.size) (hA1 : 1 ≤ lengthA) (hB1 : 1 ≤ lengthB) :
    (mergeLow cmp d work minGallop baseA lengthA baseB lengthB).1.toList.Perm work.toList := by
  have htemp : (work.extract baseA (baseA + lengthA)).size = lengthA := by simp; omega
  have h0 : FrontMerge.Sound work.toList
      ⟨work, work.extract baseA (baseA + lengthA), baseA, 0, baseB, lengthA, lengthB, minGallop⟩ := by
    refine ⟨hAB.symm, hB, by simp only; omega, ?_⟩
    have hslice : slice (work.extract baseA (baseA + lengthA)) 0 lengthA =
        (work.toList.drop baseA).take lengthA := by
      simp [slice_eq, List.extract_eq_take_drop, List.take_take]
    simp only
    rw [hslice, hAB, ← List.drop_drop, List.append_assoc, List.take_append_drop,
      List.take_append_drop]
  have h1 := h0.takeB d hB1
  simp only [mergeLow]
  split
  · exact h1.finish d nofun
  next hB0 =>
  split
  · next hone => exact h1.finish d (fun _ => by simpa using hone)
  next hne =>
  simp only [beq_iff_eq] at hB0 hne
  have hr := FrontMerge.run_ends d cmp (2 * (lengthA + lengthB) + 4) _ (.stepping 0 0) h1
    (by simp only [FrontMerge.takeB] at hne ⊢; omega) (by simp only [FrontMerge.takeB] at hB0 ⊢; omega)
  exact hr.1.finish d hr.2

/-! ### A merge from the back -/

@[simp] theorem size_writeAt (a : Array α) (pos : Int) (x : α) : (writeAt a pos x).size = a.size := by
  unfold writeAt
  split <;> simp

/-- A write at a position that is not negative. -/
theorem writeAt_of_nonneg (a : Array α) {pos : Int} (h : 0 ≤ pos) (x : α) :
    writeAt a pos x = writeFrom a pos.toNat [x] := by
  simp only [writeAt, if_neg (Int.not_lt.2 h)]
  rfl

namespace BackMerge

/-- What a merge from the back keeps of the array `o` it started from: the array up
to the first run's next element, the part of the second run still aside and the
output written so far (from just past the output position on) are a rearrangement
of `o`. The gap between the first run's rest and the output is as long as what is
left of the second run, which is the front of what was set aside. -/
structure Sound (o : List α) (s : BackMerge α) : Prop where
  gap : s.dest = s.cursorA + s.lengthB
  startA : 0 ≤ s.cursorA + 1
  fitsA : s.lengthA ≤ (s.cursorA + 1).toNat
  tempB : s.cursorB + 1 = s.lengthB
  fitsB : s.lengthB ≤ s.temp.size
  fitsEnd : (s.dest + 1).toNat ≤ s.work.size
  perm : (s.work.toList.take (s.cursorA + 1).toNat ++ slice s.temp 0 s.lengthB ++
    s.work.toList.drop (s.dest + 1).toNat).Perm o

variable (d : α) {o : List α} {s : BackMerge α}

theorem Sound.withMinGallop (h : s.Sound o) (m : Nat) : ({ s with minGallop := m } : BackMerge α).Sound o :=
  ⟨h.gap, h.startA, h.fitsA, h.tempB, h.fitsB, h.fitsEnd, h.perm⟩

theorem Sound.takeA (h : s.Sound o) (hA : 1 ≤ s.lengthA) : (takeA d s).Sound o := by
  obtain ⟨gap, startA, fitsA, tempB, fitsB, fitsEnd, perm⟩ := h
  have hw : (s.dest.toNat) + [get d s.work s.cursorA.toNat].length ≤ s.work.size := by simp; omega
  refine ⟨by simp [BackMerge.takeA]; omega, by simp [BackMerge.takeA]; omega,
    by simp [BackMerge.takeA]; omega, tempB, fitsB, by simp [BackMerge.takeA]; omega, ?_⟩
  simp only [BackMerge.takeA, writeAt_of_nonneg _ (show 0 ≤ s.dest by omega)]
  rw [show (s.cursorA - 1 + 1).toNat = (s.cursorA + 1).toNat - 1 by omega,
    take_writeFrom_of_le _ _ _ (by omega) hw,
    show (s.dest - 1 + 1).toNat = s.dest.toNat by omega, drop_writeFrom _ _ _ hw,
    show s.dest.toNat + [get d s.work s.cursorA.toNat].length = (s.dest + 1).toNat by simp; omega]
  have hcur : s.cursorA.toNat < s.work.toList.length := by simp; omega
  rw [show (s.cursorA + 1).toNat = s.cursorA.toNat + 1 by omega, List.take_add_one,
    List.getElem?_eq_getElem hcur, Option.toList_some, ← get_eq_getElem d _ _ hcur,
    show s.cursorA.toNat + 1 - 1 = s.cursorA.toNat by omega] at *
  refine List.Perm.trans ?_ perm
  simpa only [List.append_assoc, List.singleton_append, List.cons_append, List.nil_append] using
    (@List.perm_middle _ _ (slice s.temp 0 s.lengthB) _).append_left (s.work.toList.take s.cursorA.toNat)

theorem Sound.takeB (h : s.Sound o) (hB : 1 ≤ s.lengthB) : (takeB d s).Sound o := by
  obtain ⟨gap, startA, fitsA, tempB, fitsB, fitsEnd, perm⟩ := h
  have hw : (s.dest.toNat) + [get d s.temp s.cursorB.toNat].length ≤ s.work.size := by simp; omega
  refine ⟨by simp [BackMerge.takeB]; omega, startA, fitsA, by simp [BackMerge.takeB]; omega,
    by simp [BackMerge.takeB]; omega, by simp [BackMerge.takeB]; omega, ?_⟩
  simp only [BackMerge.takeB, writeAt_of_nonneg _ (show 0 ≤ s.dest by omega)]
  rw [take_writeFrom_of_le _ _ _ (by omega) hw,
    show (s.dest - 1 + 1).toNat = s.dest.toNat by omega, drop_writeFrom _ _ _ hw,
    show s.dest.toNat + [get d s.temp s.cursorB.toNat].length = (s.dest + 1).toNat by simp; omega]
  rw [show s.lengthB = s.cursorB.toNat + 1 by omega, ← slice_append, Nat.zero_add,
    show 1 = 0 + 1 from rfl, slice_succ d _ _ _ (by omega), slice_zero] at perm
  simpa only [List.append_assoc, List.singleton_append, List.cons_append, List.nil_append,
    show s.lengthB - 1 = s.cursorB.toNat by omega] using perm

theorem Sound.takeManyA (h : s.Sound o) {k : Nat} (hk : k ≤ s.lengthA) : (takeManyA s k).Sound o := by
  obtain ⟨gap, startA, fitsA, tempB, fitsB, fitsEnd, perm⟩ := h
  have hlen : (slice s.work (s.cursorA - k + 1).toNat k).length = k := length_slice _ _ _ (by omega)
  have hw : (s.dest - k + 1).toNat + (slice s.work (s.cursorA - k + 1).toNat k).length ≤ s.work.size := by
    omega
  refine ⟨by simp [BackMerge.takeManyA]; omega, by simp [BackMerge.takeManyA]; omega,
    by simp [BackMerge.takeManyA]; omega, tempB, fitsB, by simp [BackMerge.takeManyA]; omega, ?_⟩
  simp only [BackMerge.takeManyA]
  rw [take_writeFrom_of_le _ _ _ (by omega) hw, drop_writeFrom _ _ _ hw, hlen,
    show (s.dest - k + 1).toNat + k = (s.dest + 1).toNat by omega]
  rw [show (s.cursorA + 1).toNat = (s.cursorA - k + 1).toNat + k by omega, List.take_add,
    ← slice_eq] at perm
  refine List.Perm.trans ?_ perm
  simpa only [List.append_assoc] using
    ((@List.perm_append_comm _ (slice s.temp 0 s.lengthB)
      (slice s.work (s.cursorA - k + 1).toNat k)).append_right
      (s.work.toList.drop (s.dest + 1).toNat)).append_left
      (s.work.toList.take (s.cursorA - k + 1).toNat)

theorem Sound.takeManyB (h : s.Sound o) {k : Nat} (hk : k ≤ s.lengthB) : (takeManyB s k).Sound o := by
  obtain ⟨gap, startA, fitsA, tempB, fitsB, fitsEnd, perm⟩ := h
  have hlen : (slice s.temp (s.cursorB - k + 1).toNat k).length = k := length_slice _ _ _ (by omega)
  have hw : (s.dest - k + 1).toNat + (slice s.temp (s.cursorB - k + 1).toNat k).length ≤ s.work.size := by
    omega
  refine ⟨by simp [BackMerge.takeManyB]; omega, startA, fitsA, by simp [BackMerge.takeManyB]; omega,
    by simp [BackMerge.takeManyB]; omega, by simp [BackMerge.takeManyB]; omega, ?_⟩
  simp only [BackMerge.takeManyB]
  rw [take_writeFrom_of_le _ _ _ (by omega) hw, drop_writeFrom _ _ _ hw, hlen,
    show (s.dest - k + 1).toNat + k = (s.dest + 1).toNat by omega]
  rw [show s.lengthB = (s.cursorB - k + 1).toNat + k by omega, ← slice_append, Nat.zero_add] at perm
  simpa only [List.append_assoc, show s.lengthB - k = (s.cursorB - k + 1).toNat by omega] using perm

/-- The array a merge from the back ends with is a rearrangement of the one it
started from, provided the second run's first element is what is left of it when
the merge ends by putting that element first. -/
theorem Sound.finish (h : s.Sound o) {e : Ending} (he : e = .lastOfFirst → s.lengthB = 1) :
    (BackMerge.finish d s e).toList.Perm o := by
  obtain ⟨gap, startA, fitsA, tempB, fitsB, fitsEnd, perm⟩ := h
  cases e with
  | restOfFirst =>
    simp only [BackMerge.finish]
    split
    · have hlen : (slice s.temp 0 s.lengthB).length = s.lengthB := length_slice _ _ _ (by omega)
      rw [writeFrom_toList _ _ _ (by omega), hlen,
        show (s.dest - ((s.lengthB - 1 : Nat) : Int)).toNat = (s.cursorA + 1).toNat by omega,
        show (s.cursorA + 1).toNat + s.lengthB = (s.dest + 1).toNat by omega]
      exact perm
    · rw [show s.lengthB = 0 by omega, slice_zero, List.append_nil,
        show (s.dest + 1).toNat = (s.cursorA + 1).toNat by omega, List.take_append_drop] at perm
      exact perm
  | lastOfFirst =>
    have hB := he rfl
    have hlen : (slice s.work (s.cursorA - s.lengthA + 1).toNat s.lengthA).length = s.lengthA :=
      length_slice _ _ _ (by omega)
    have hw : (s.dest - s.lengthA + 1).toNat +
        (slice s.work (s.cursorA - s.lengthA + 1).toNat s.lengthA).length ≤ s.work.size := by omega
    have hfin : (BackMerge.finish d s .lastOfFirst).toList =
        s.work.toList.take (s.cursorA - s.lengthA + 1).toNat ++ [get d s.temp s.cursorB.toNat] ++
        slice s.work (s.cursorA - s.lengthA + 1).toNat s.lengthA ++
        s.work.toList.drop (s.dest + 1).toNat := by
      have hw' : (s.dest - s.lengthA).toNat + [get d s.temp s.cursorB.toNat].length ≤
          (writeFrom s.work (s.dest - s.lengthA + 1).toNat
            (slice s.work (s.cursorA - s.lengthA + 1).toNat s.lengthA)).size := by simp; omega
      simp only [BackMerge.finish]
      rw [writeAt_of_nonneg _ (by omega), writeFrom_toList _ _ _ hw',
        take_writeFrom_of_le _ _ _ (by omega) hw,
        show (s.dest - s.lengthA).toNat + [get d s.temp s.cursorB.toNat].length =
          (s.dest - s.lengthA + 1).toNat by simp; omega,
        drop_writeFrom _ _ _ hw, hlen,
        show (s.dest - s.lengthA + 1).toNat + s.lengthA = (s.dest + 1).toNat by omega,
        show (s.dest - s.lengthA).toNat = (s.cursorA - s.lengthA + 1).toNat by omega]
      simp only [List.append_assoc]
    rw [hfin]
    rw [hB, show (s.cursorA + 1).toNat = (s.cursorA - s.lengthA + 1).toNat + s.lengthA by omega,
      List.take_add, ← slice_eq, show 1 = 0 + 1 from rfl, slice_succ d _ _ _ (by omega), slice_zero,
      show (0 : Nat) = s.cursorB.toNat by omega] at perm
    refine List.Perm.trans ?_ perm
    simpa only [List.append_assoc, List.singleton_append, List.cons_append, List.nil_append] using
      (@List.perm_middle _ _ (slice s.work (s.cursorA - s.lengthA + 1).toNat s.lengthA) _).symm.append_left _

/-- How a merge from the back may end: sound, and with exactly one element of the
second run left when it ends by putting that element first. -/
def Ends (o : List α) (r : BackMerge α × Ending) : Prop :=
  r.1.Sound o ∧ (r.2 = .lastOfFirst → r.1.lengthB = 1)

theorem Sound.maybeTakeManyA (h : s.Sound o) {k : Nat} (hk : k ≤ s.lengthA) :
    (if k > 0 then BackMerge.takeManyA s k else s).Sound o := by
  split
  · exact h.takeManyA hk
  · exact h

theorem Sound.maybeTakeManyB (h : s.Sound o) {k : Nat} (hk : k ≤ s.lengthB) :
    (if k > 0 then BackMerge.takeManyB s k else s).Sound o := by
  split
  · exact h.takeManyB hk
  · exact h

theorem lengthA_maybeTakeManyA (k : Nat) :
    (if k > 0 then takeManyA s k else s).lengthA = s.lengthA - k := by
  split
  · rfl
  · simp_all

theorem lengthB_maybeTakeManyA (k : Nat) :
    (if k > 0 then takeManyA s k else s).lengthB = s.lengthB := by
  split <;> rfl

theorem lengthA_maybeTakeManyB (k : Nat) :
    (if k > 0 then takeManyB s k else s).lengthA = s.lengthA := by
  split <;> rfl

theorem lengthB_maybeTakeManyB (k : Nat) :
    (if k > 0 then takeManyB s k else s).lengthB = s.lengthB - k := by
  split
  · rfl
  · simp_all

variable (cmp : α → α → Float)

/-- A merge from the back, started with at least one element of the first run and
two of the second, ends sound, however its comparisons go and whatever its fuel. -/
theorem run_ends (fuel : Nat) (s : BackMerge α) (ph : Phase) (h : s.Sound o)
    (hA : 1 ≤ s.lengthA) (hB : 2 ≤ s.lengthB) : Ends o (run cmp d fuel s ph) := by
  induction fuel generalizing s ph with
  | zero => exact ⟨h, nofun⟩
  | succ fuel ih =>
    cases ph with
    | stepping winsA winsB =>
      simp only [run]
      split
      · have h1 := h.takeA d hA
        split
        · exact ⟨h1, nofun⟩
        · next hne =>
          have hA' : 1 ≤ (takeA d s).lengthA := by simp at hne; omega
          split
          · exact ih _ _ (h1.withMinGallop _) hA' hB
          · exact ih _ _ h1 hA' hB
      · have h1 := h.takeB d (by omega)
        split
        · next hone => exact ⟨h1, fun _ => by simpa using hone⟩
        · next hne =>
          have hB' : 2 ≤ (takeB d s).lengthB := by simp [BackMerge.takeB] at hne ⊢; omega
          split
          · exact ih _ _ (h1.withMinGallop _) hA hB'
          · exact ih _ _ h1 hA hB'
    | galloping winsA winsB first =>
      rw [run]
      split
      · exact ih _ _ (h.withMinGallop _) hA hB
      · extract_lets X kA wA s1 s2 kB wB s3 s4
        have hX : X.Sound o := h.withMinGallop _
        have h1 : s1.Sound o := hX.maybeTakeManyA (Nat.sub_le X.lengthA kA)
        have h1A : s1.lengthA = s.lengthA - wA := lengthA_maybeTakeManyA wA
        have h1B : s1.lengthB = s.lengthB := lengthB_maybeTakeManyA wA
        split
        · exact ⟨h1, nofun⟩
        next hnot0 =>
        have h1A1 : 1 ≤ s1.lengthA := by simp only [beq_iff_eq] at hnot0; omega
        have h2 : s2.Sound o := h1.takeB d (by omega)
        have h2A : s2.lengthA = s1.lengthA := rfl
        have h2B : s2.lengthB = s1.lengthB - 1 := rfl
        split
        · next hone => exact ⟨h2, fun _ => by simpa using hone⟩
        next hB2 =>
        have h3 : s3.Sound o := h2.maybeTakeManyB (Nat.sub_le s2.lengthB kB)
        have h3A : s3.lengthA = s2.lengthA := lengthA_maybeTakeManyB wB
        have h3B : s3.lengthB = s2.lengthB - wB := lengthB_maybeTakeManyB wB
        split
        · next hone => exact ⟨h3, fun _ => by simpa using hone.2⟩
        split
        · exact ⟨h3, nofun⟩
        next hnot1 hnot0' =>
        have h3B2 : 2 ≤ s3.lengthB := by
          simp only [beq_iff_eq] at hB2 hnot1 hnot0'; omega
        have h4 : s4.Sound o := h3.takeA d (by omega)
        have h4A : s4.lengthA = s3.lengthA - 1 := rfl
        have h4B : s4.lengthB = s3.lengthB := rfl
        split
        · exact ⟨h4, nofun⟩
        · next hnot =>
          simp only [beq_iff_eq] at hnot
          exact ih _ _ h4 (by omega) (by omega)
end BackMerge

/-- A merge from the back of two neighbouring runs inside the array, neither empty,
rearranges the array. -/
theorem mergeHigh_perm (cmp : α → α → Float) (d : α) (work : Array α) (minGallop : Nat)
    {baseA lengthA baseB lengthB : Nat} (hAB : baseB = baseA + lengthA)
    (hB : baseB + lengthB ≤ work.size) (hA1 : 1 ≤ lengthA) (hB1 : 1 ≤ lengthB) :
    (mergeHigh cmp d work minGallop baseA lengthA baseB lengthB).1.toList.Perm work.toList := by
  have htemp : (work.extract baseB (baseB + lengthB)).size = lengthB := by simp; omega
  have h0 : BackMerge.Sound work.toList
      ⟨work, work.extract baseB (baseB + lengthB), ((baseB + lengthB - 1 : Nat) : Int),
        ((lengthB - 1 : Nat) : Int), ((baseA + lengthA - 1 : Nat) : Int), lengthA, lengthB, minGallop,
        baseA⟩ := by
    refine ⟨by simp only; omega, by simp only; omega, by simp only; omega, by simp only; omega,
      by simp only; omega, by simp only; omega, ?_⟩
    have hslice : slice (work.extract baseB (baseB + lengthB)) 0 lengthB =
        (work.toList.drop baseB).take lengthB := by
      simp [slice_eq, List.extract_eq_take_drop, List.take_take]
    simp only
    rw [hslice, show (((baseA + lengthA - 1 : Nat) : Int) + 1).toNat = baseB by omega,
      show (((baseB + lengthB - 1 : Nat) : Int) + 1).toNat = baseB + lengthB by omega,
      ← List.drop_drop, List.append_assoc, List.take_append_drop, List.take_append_drop]
  have h1 := h0.takeA d hA1
  simp only [mergeHigh]
  split
  · exact h1.finish d nofun
  next hA0 =>
  split
  · next hone => exact h1.finish d (fun _ => by simpa using hone)
  next hne =>
  simp only [beq_iff_eq] at hA0 hne
  have hr := BackMerge.run_ends d cmp (2 * (lengthA + lengthB) + 4) _ (.stepping 0 0) h1
    (by simp only [BackMerge.takeA] at hA0 ⊢; omega) (by simp only [BackMerge.takeA] at hne ⊢; omega)
  exact hr.1.finish d hr.2

/-! ### The stack of runs -/

/-- Runs (start and length) that follow one another from `start`, the last one
ending at `stop`. -/
def Chain : Nat → List (Nat × Nat) → Nat → Prop
  | start, [], stop => start = stop
  | start, r :: rs, stop => r.1 = start ∧ Chain (start + r.2) rs stop

theorem Chain.le : ∀ {start : Nat} {rs : List (Nat × Nat)} {stop : Nat}, Chain start rs stop → start ≤ stop
  | _, [], _, h => Nat.le_of_eq h
  | _, _ :: _, _, ⟨_, h⟩ => Nat.le_trans (Nat.le_add_right _ _) h.le

theorem chain_append {start stop : Nat} {xs ys : List (Nat × Nat)} :
    Chain start (xs ++ ys) stop ↔ ∃ mid, Chain start xs mid ∧ Chain mid ys stop := by
  induction xs generalizing start with
  | nil => exact ⟨fun h => ⟨start, rfl, h⟩, fun ⟨_, hm, h⟩ => hm ▸ h⟩
  | cons r rs ih =>
    simp only [List.cons_append, Chain, ih]
    exact ⟨fun ⟨h1, mid, h2, h3⟩ => ⟨mid, ⟨h1, h2⟩, h3⟩, fun ⟨mid, ⟨h1, h2⟩, h3⟩ => ⟨h1, mid, h2, h3⟩⟩

/-- Two neighbouring runs make one. -/
theorem chain_merge {start stop : Nat} {ra rb : Nat × Nat} {rest : List (Nat × Nat)}
    (h : Chain start (ra :: rb :: rest) stop) :
    Chain start ((ra.1, ra.2 + rb.2) :: rest) stop ∧ rb.1 = ra.1 + ra.2 ∧ rb.1 + rb.2 ≤ stop := by
  obtain ⟨ha, hb, hrest⟩ := h
  refine ⟨⟨ha, by rwa [Nat.add_assoc] at hrest⟩, by omega, ?_⟩
  have := hrest.le
  omega

/-- The stack as the runs below place `i`, the two runs at `i` and `i + 1`, and the
runs above them. -/
theorem toList_eq_split (runs : Array (Nat × Nat)) (i : Nat) (hi : i + 1 < runs.size) :
    runs.toList = runs.toList.take i ++
      runs.getD i (0, 0) :: runs.getD (i + 1) (0, 0) :: runs.toList.drop (i + 2) := by
  have hi' : i + 1 < runs.toList.length := by simpa using hi
  have hA : runs.toList[i] = runs.getD i (0, 0) := by
    rw [Array.getD_eq_getD_getElem?, Array.getElem?_eq_getElem (by omega)]; simp
  have hB : runs.toList[i + 1] = runs.getD (i + 1) (0, 0) := by
    rw [Array.getD_eq_getD_getElem?, Array.getElem?_eq_getElem (by omega)]; simp
  rw [← hA, ← hB, ← List.drop_eq_getElem_cons, ← List.drop_eq_getElem_cons, List.take_append_drop]

/-- The stack after the runs at places `i` and `i + 1` are replaced by `r`, as a
merge leaves it: when they are below the top run, the top run moves down. -/
def mergedRuns (runs : Array (Nat × Nat)) (i : Nat) (r : Nat × Nat) : Array (Nat × Nat) :=
  (if i + 3 == runs.size then (runs.setIfInBounds i r).setIfInBounds (i + 1) ((runs.setIfInBounds i r).getD (i + 2) (0, 0))
    else runs.setIfInBounds i r).pop

theorem size_mergedRuns (runs : Array (Nat × Nat)) (i : Nat) (r : Nat × Nat) :
    (mergedRuns runs i r).size = runs.size - 1 := by
  unfold mergedRuns
  split <;> simp

/-- Of the top three runs, two neighbours replaced by one: the runs below stay, and the
one above them, if any, moves down. -/
theorem toList_mergedRuns (runs : Array (Nat × Nat)) {i : Nat}
    (hi : i + 2 = runs.size ∨ i + 3 = runs.size) {pre rest : List (Nat × Nat)} {ra rb : Nat × Nat}
    (hl : runs.toList = pre ++ ra :: rb :: rest) (hpre : pre.length = i) (r : Nat × Nat) :
    (mergedRuns runs i r).toList = pre ++ r :: rest := by
  have hsize : runs.toList.length = runs.size := Array.length_toList
  rw [hl] at hsize
  unfold mergedRuns
  rcases rest with _ | ⟨rc, _ | ⟨rd, rest⟩⟩
  · simp [Array.toList_setIfInBounds, hl, ← hsize, hpre]
  · simp only [List.length_append, List.length_cons, List.length_nil] at hsize
    have hlt : i + 2 < runs.size := by omega
    have hC : runs[i + 2] = rc := by
      simp only [← Array.getElem_toList, hl, List.getElem_append_right (by omega : pre.length ≤ i + 2)]
      simp [hpre]
    simp [Array.toList_setIfInBounds, Array.getD_eq_getD_getElem?, hC, hl, ← hsize, hpre]
  · simp at hsize; omega

namespace Sorter

/-- What the sorter keeps of the array `o` it started from: its array is a
rearrangement of `o`, and its stack of runs is a chain of neighbouring stretches from
the start of the array up to `top`, inside the array. -/
structure Sound (o : List α) (top : Nat) (s : Sorter α) : Prop where
  perm : s.work.toList.Perm o
  chain : Chain 0 s.runs.toList top
  fits : top ≤ s.work.size

variable (cmp : α → α → Float) (d : α) {o : List α} {top : Nat} {s : Sorter α}

/-- The stack after two neighbouring runs among the top three are merged: the two
make one, and the run above them, if any, moves down. -/
theorem chain_merged {runs : Array (Nat × Nat)} {i bA lA bB lB : Nat}
    (hc : Chain 0 runs.toList top) (hi : i + 2 = runs.size ∨ i + 3 = runs.size)
    (hA : runs.getD i (0, 0) = (bA, lA)) (hB : runs.getD (i + 1) (0, 0) = (bB, lB)) :
    Chain 0 (let runs' := runs.setIfInBounds i (bA, lA + lB)
      (if i + 3 == runs.size then runs'.setIfInBounds (i + 1) (runs'.getD (i + 2) (0, 0))
        else runs').pop).toList top ∧ bB = bA + lA ∧ bB + lB ≤ top := by
  have hl := toList_eq_split runs i (by omega)
  rw [hA, hB] at hl
  have hpre : (runs.toList.take i).length = i := by simp; omega
  rw [hl] at hc
  obtain ⟨mid, hpre', hrest⟩ := chain_append.1 hc
  obtain ⟨hm, hab, hend⟩ := chain_merge hrest
  refine ⟨?_, hab, hend⟩
  show Chain 0 (mergedRuns runs i (bA, lA + lB)).toList top
  rw [toList_mergedRuns runs hi hl hpre]
  exact chain_append.2 ⟨mid, hpre', hm⟩

/-- Merging two neighbouring runs among the top three keeps the sorter sound: the
trimmed stretches are merged in place by one of the two merges. -/
theorem Sound.mergeAt (h : s.Sound o top) {i : Nat}
    (hi : i + 2 = s.runs.size ∨ i + 3 = s.runs.size) : (s.mergeAt cmp d i).Sound o top := by
  rcases hA : s.runs.getD i (0, 0) with ⟨bA, lA⟩
  rcases hB : s.runs.getD (i + 1) (0, 0) with ⟨bB, lB⟩
  obtain ⟨hc, hab, hend⟩ := chain_merged h.chain hi hA hB
  unfold Sorter.mergeAt
  simp only [hA, hB]
  have hk := gallopRight_le cmp d s.work (get d s.work bB) bA lA 0 (Nat.zero_le _)
  generalize gallopRight cmp d s.work (get d s.work bB) bA lA 0 = k at hk ⊢
  have hm := gallopLeft_le cmp d s.work (get d s.work (bA + k + (lA - k) - 1)) bB lB (lB - 1)
    (Nat.sub_le _ _)
  generalize gallopLeft cmp d s.work (get d s.work (bA + k + (lA - k) - 1)) bB lB (lB - 1) = m
    at hm ⊢
  have hAB : bB = bA + k + (lA - k) := by omega
  have hfit : bB + m ≤ s.work.size := by have := h.fits; omega
  split
  · exact ⟨h.perm, hc, h.fits⟩
  split
  · exact ⟨h.perm, hc, h.fits⟩
  rename_i hA1 hB1
  simp only [beq_iff_eq] at hA1 hB1
  have hsize : top ≤ s.work.toList.length := by simpa using h.fits
  by_cases hle : lA - k ≤ m
  · rw [if_pos hle]
    have hw := mergeLow_perm cmp d s.work s.minGallop hAB hfit (by omega) (by omega)
    exact ⟨hw.trans h.perm, hc, by rw [← Array.length_toList, hw.length_eq]; exact hsize⟩
  · rw [if_neg hle]
    have hw := mergeHigh_perm cmp d s.work s.minGallop hAB hfit (by omega) (by omega)
    exact ⟨hw.trans h.perm, hc, by rw [← Array.length_toList, hw.length_eq]; exact hsize⟩

theorem Sound.size_eq (h : s.Sound o top) : s.work.size = o.length := by
  rw [← Array.length_toList, h.perm.length_eq]

/-- Writing a rearrangement of a stretch of the array keeps the sorter sound. -/
theorem Sound.write (h : s.Sound o top) {pos : Nat} {xs : List α}
    (hfit : pos + xs.length ≤ s.work.size) (hp : xs.Perm (slice s.work pos xs.length)) :
    ({ s with work := writeFrom s.work pos xs } : Sorter α).Sound o top :=
  ⟨(writeFrom_perm s.work pos hfit hp).trans h.perm, h.chain, by simpa using h.fits⟩

/-- The merges the stack's collapse makes: the top pair, or the pair below it. -/
theorem Sound.mergeAtTop (h : s.Sound o top) (hs : 1 < s.runs.size) (p : Prop) [Decidable p] :
    (s.mergeAt cmp d (if p then s.runs.size - 2 - 1 else s.runs.size - 2)).Sound o top :=
  h.mergeAt cmp d (by split <;> omega)

theorem Sound.collapse (h : s.Sound o top) (fuel : Nat) : (collapse cmp d fuel s).Sound o top := by
  induction fuel generalizing s with
  | zero => exact h
  | succ fuel ih =>
    rw [Sorter.collapse]
    dsimp only
    split
    · rename_i hs
      split
      · exact ih (h.mergeAtTop cmp d hs _)
      split
      · exact ih (h.mergeAt cmp d (by omega))
      · exact h
    · exact h

theorem Sound.forceCollapse (h : s.Sound o top) (fuel : Nat) :
    (forceCollapse cmp d fuel s).Sound o top := by
  induction fuel generalizing s with
  | zero => exact h
  | succ fuel ih =>
    rw [Sorter.forceCollapse]
    dsimp only
    split
    · exact ih (h.mergeAtTop cmp d (by omega) _)
    · exact h

theorem extend_le (s : Sorter α) (high : Nat) (descending : Bool) (idx len fuel : Nat) :
    runAt.extend cmp d s high descending idx len fuel ≤ len + (high - idx) := by
  induction fuel generalizing idx len with
  | zero => exact Nat.le_add_right _ _
  | succ fuel ih =>
    rw [runAt.extend]
    split
    · dsimp only
      split
      · have := ih (idx + 1) (len + 1)
        omega
      · omega
    · omega

theorem le_extend (s : Sorter α) (high : Nat) (descending : Bool) (idx len fuel : Nat) :
    len ≤ runAt.extend cmp d s high descending idx len fuel := by
  induction fuel generalizing idx len with
  | zero => exact Nat.le_refl _
  | succ fuel ih =>
    rw [runAt.extend]
    split
    · dsimp only
      split
      · exact Nat.le_trans (Nat.le_succ len) (ih (idx + 1) (len + 1))
      · exact Nat.le_refl _
    · exact Nat.le_refl _

/-- The run found at `low` is not empty and ends by `high`; reversing a descending
run keeps the sorter sound. -/
theorem Sound.runAt (h : s.Sound o top) {low high : Nat} (hlh : low < high)
    (hh : high ≤ s.work.size) :
    (s.runAt cmp d low high).1.Sound o top ∧ 1 ≤ (s.runAt cmp d low high).2 ∧
      (s.runAt cmp d low high).2 ≤ high - low := by
  unfold Sorter.runAt
  split
  · exact ⟨h, Nat.le_refl 1, by omega⟩
  dsimp only
  generalize before cmp (get d s.work (low + 1)) (get d s.work low) = descending
  have hle := extend_le cmp d s high descending (low + 2) 2 (high - low)
  have hge := le_extend cmp d s high descending (low + 2) 2 (high - low)
  generalize runAt.extend cmp d s high descending (low + 2) 2 (high - low) = len at hle hge
  have hfit : low + len ≤ s.work.size := by omega
  have hlen : (slice s.work low len).length = len := length_slice s.work low len hfit
  split
  · refine ⟨h.write (by simpa [hlen] using hfit) ?_, by omega, by omega⟩
    rw [List.length_reverse, hlen]
    exact List.reverse_perm _
  · exact ⟨h, by omega, by omega⟩

/-- Binary insertion keeps the sorter sound: each element is rotated into place
within the stretch from `low` to its own position. -/
theorem Sound.insertFrom (h : s.Sound o top) {low start high : Nat} (hl : low ≤ start)
    (hh : high ≤ s.work.size) : (s.insertFrom cmp d low start high).Sound o top := by
  induction s, start using Sorter.insertFrom.induct cmp d low high with
  | case1 s start hs pivot left moved ih =>
    rw [Sorter.insertFrom, if_pos hs]
    have hleft : left ≤ start - low := searchRight_le cmp d s.work pivot low 0 (start - low)
    have hend : low + left + (start - low - left) = start := by omega
    have hrest := length_slice s.work (low + left) (start - low - left) (by omega)
    have hmoved : moved.Perm (slice s.work (low + left) (start - low - left + 1)) := by
      rw [← slice_append, hend, slice_succ d s.work start 0 (by omega), slice_zero]
      exact (List.perm_append_singleton _ _).symm
    have hlen : moved.length = start - low - left + 1 := by simp [moved, hrest]
    refine ih (h.write (by omega) (hlen ▸ hmoved)) (by omega) (by simpa using hh)
  | case2 s start hs =>
    rw [Sorter.insertFrom, if_neg hs]
    exact h

/-- Cutting the array into runs keeps the sorter sound: each run found (and
lengthened) is pushed onto a chain that reaches exactly to it, and the stack is then
collapsed. -/
theorem Sound.cut (minRun fuel : Nat) {low remaining : Nat} (h : s.Sound o low)
    (hr : low + remaining = s.work.size) :
    ∃ top, (cut cmp d minRun fuel s low remaining).Sound o top := by
  induction fuel, s, low, remaining using Sorter.cut.induct cmp d minRun with
  | case1 s _ _ => exact ⟨_, h⟩
  | case2 fuel s low remaining hz =>
    rw [Sorter.cut, if_pos hz]
    exact ⟨_, h⟩
  | case3 fuel s low remaining hz s₁ len hrun s₂ len₁ hins s₃ s₄ ih =>
    simp only [beq_iff_eq] at hz
    obtain ⟨h₁, hlen, hlen'⟩ :=
      h.runAt cmp d (Nat.lt_add_of_pos_right (Nat.pos_of_ne_zero hz)) (Nat.le_of_eq hr)
    rw [hrun] at h₁ hlen hlen'
    simp only at hlen hlen'
    have h₂ : s₂.Sound o low ∧ 1 ≤ len₁ ∧ len₁ ≤ remaining := by
      split at hins
      · obtain ⟨rfl, rfl⟩ := Prod.mk.inj hins
        refine ⟨h₁.insertFrom cmp d (by split <;> omega) ?_, by omega, by omega⟩
        have := h.size_eq
        have := h₁.size_eq
        omega
      · obtain ⟨rfl, rfl⟩ := Prod.mk.inj hins
        exact ⟨h₁, hlen, by omega⟩
    obtain ⟨h₂, hl₁, hl₁'⟩ := h₂
    have h₃ : ({ s₂ with runs := s₂.runs.push (low, len₁) } : Sorter α).Sound o (low + len₁) := by
      refine ⟨h₂.perm, ?_, ?_⟩
      · simp only [Array.toList_push]
        exact chain_append.2 ⟨low, h₂.chain, rfl, rfl⟩
      · have := h.size_eq
        have := h₂.size_eq
        simp only
        omega
    have h₄ := h₃.collapse cmp d (s₂.runs.push (low, len₁)).size.succ
    rw [Sorter.cut, if_neg (by simpa using hz), hrun]
    simp only [hins]
    refine ih h₄ ?_
    have : s.work.size = o.length := h.size_eq
    have : s₄.work.size = o.length := h₄.size_eq
    omega

end Sorter

/-- Sorting an array rearranges it. -/
theorem sortArray_perm (cmp : α → α → Float) (d : α) (a : Array α) :
    (sortArray cmp d a).toList.Perm a.toList := by
  unfold sortArray
  split
  · exact List.Perm.refl _
  · have h₀ : ({ work := a } : Sorter α).Sound a.toList 0 := ⟨List.Perm.refl _, rfl, Nat.zero_le _⟩
    obtain ⟨top, h₁⟩ := h₀.cut cmp d (minRunLength a.size) a.size (Nat.zero_add _)
    exact (h₁.forceCollapse cmp d _).perm

/-- Sorting a list rearranges it, whatever the comparison. -/
theorem sort_perm (cmp : α → α → Float) (xs : List α) : (sort cmp xs).Perm xs := by
  cases xs with
  | nil => exact List.Perm.refl _
  | cons x xs => simpa [sort] using sortArray_perm cmp x (x :: xs).toArray

theorem sortOn_perm (key : α → Float) (xs : List α) : (sortOn key xs).Perm xs :=
  sort_perm _ xs

end LaneGate.Sorting
