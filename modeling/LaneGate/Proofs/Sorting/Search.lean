import LaneGate.Proofs.Sorting.Permutation
import LaneGate.Proofs.Sorting.Merge
/-!
# Where the searches land

On a sorted stretch, each search of the sort finds the cut between the elements on
one side of a key and those on the other. A binary search lands on the cut when the
cut lies within its bounds (`searchLeft_eq`, `searchRight_eq`); a gallop widens its
steps from a hint until it has bracketed the cut, so its binary search lands on the
cut as well (`gallopLeft_eq`, `gallopRight_eq`). Stated for a comparison that follows
an integer key, the cut splits the stretch into a front and a back
(`CutLeft`, `CutRight`), which is what the merges use.
-/

namespace LaneGate.Sorting

variable {α : Type}

/-! ### Widening -/

/-- What holds of the starting last offset and of every offset whose probe went on
holds of the last offset a widening returns. -/
theorem widen_fst (probe : Nat → Bool) (maxOfs : Nat) (Q : Nat → Prop) (fuel lastOfs offset : Nat)
    (h0 : Q lastOfs) (hstep : ∀ o, o < maxOfs → probe o = true → Q o) :
    Q (widen probe maxOfs fuel lastOfs offset).1 := by
  induction fuel generalizing lastOfs offset with
  | zero => exact h0
  | succ fuel ih =>
    simp only [widen]
    split
    · next hgo => exact ih _ _ (hstep offset hgo.1 hgo.2)
    · exact h0

/-- With fuel enough to reach the bound, a widening stops at the bound or at an offset
whose probe says stop. -/
theorem widen_snd (probe : Nat → Bool) (maxOfs fuel lastOfs offset : Nat)
    (hfuel : maxOfs ≤ fuel + offset) :
    (widen probe maxOfs fuel lastOfs offset).2 = maxOfs ∨
      probe (widen probe maxOfs fuel lastOfs offset).2 = false := by
  induction fuel generalizing lastOfs offset with
  | zero => exact .inl (Nat.min_eq_right (by omega))
  | succ fuel ih =>
    simp only [widen]
    split
    · exact ih _ _ (by omega)
    · next hstop =>
      by_cases hlt : offset < maxOfs
      · right
        rw [Nat.min_eq_left (Nat.le_of_lt hlt)]
        simpa [hlt] using hstop
      · exact .inl (Nat.min_eq_right (by omega))

/-- A widening from the offsets 0 and 1 whose probe goes on exactly below `c` brackets
`c`: the last offset is below it, the offset at or above it and within the bound. -/
theorem widen_bracket (probe : Nat → Bool) (maxOfs fuel c : Nat) (hfuel : maxOfs ≤ fuel + 1)
    (hc : 0 < c) (hcm : c ≤ maxOfs) (hprobe : ∀ o, o < maxOfs → (probe o = true ↔ o < c)) :
    (widen probe maxOfs fuel 0 1).1 < c ∧ c ≤ (widen probe maxOfs fuel 0 1).2 ∧
      (widen probe maxOfs fuel 0 1).2 ≤ maxOfs := by
  have hle := widen_snd_le probe maxOfs fuel 0 1
  refine ⟨widen_fst probe maxOfs (· < c) fuel 0 1 hc fun o ho hp => (hprobe o ho).1 hp, ?_, hle⟩
  rcases widen_snd probe maxOfs fuel 0 1 hfuel with ho | ho
  · omega
  · refine Nat.le_of_not_lt fun hlt => ?_
    rw [(hprobe _ (by omega)).2 hlt] at ho
    cases ho

/-! ### Binary search -/

section Search

variable (cmp : α → α → Float) (d : α)

/-- Searching `[lo, hi)` for the first element a key goes before lands on the cut
`P` when the cut lies within the bounds. -/
theorem searchRight_eq (a : Array α) (x : α) (base : Nat) {lo hi P : Nat}
    (hcut : ∀ i, lo ≤ i → i < hi → (before cmp x (get d a (base + i)) = true ↔ P ≤ i))
    (hlo : lo ≤ P) (hhi : P ≤ hi) : searchRight cmp d a x base lo hi = P := by
  fun_induction searchRight cmp d a x base lo hi with
  | case1 lo hi hlt m hb ih =>
    exact ih (fun i h1 h2 => hcut i h1 (by omega)) hlo ((hcut m (by omega) (by omega)).1 hb)
  | case2 lo hi hlt m hb ih =>
    have hm : m < P := Nat.lt_of_not_le fun hle => hb ((hcut m (by omega) (by omega)).2 hle)
    exact ih (fun i h1 h2 => hcut i (by omega) h2) (by omega) hhi
  | case3 lo hi hge => omega

/-- Searching `[lo, hi)` for the first element that does not go before a key lands on
the cut `P` when the cut lies within the bounds. -/
theorem searchLeft_eq (a : Array α) (x : α) (base : Nat) {lo hi P : Nat}
    (hcut : ∀ i, lo ≤ i → i < hi → (before cmp (get d a (base + i)) x = true ↔ i < P))
    (hlo : lo ≤ P) (hhi : P ≤ hi) : searchLeft cmp d a x base lo hi = P := by
  fun_induction searchLeft cmp d a x base lo hi with
  | case1 lo hi hlt m hb ih =>
    exact ih (fun i h1 h2 => hcut i (by omega) h2) ((hcut m (by omega) (by omega)).1 hb) hhi
  | case2 lo hi hlt m hb ih =>
    have hm : P ≤ m := Nat.le_of_not_lt fun hlt' => hb ((hcut m (by omega) (by omega)).2 hlt')
    exact ih (fun i h1 h2 => hcut i h1 (by omega)) hlo hm
  | case3 lo hi hge => omega

/-! ### Galloping -/

/-- A gallop for the first element a key goes before, from any hint inside the
stretch, lands on the cut. -/
theorem gallopRight_eq (a : Array α) (x : α) (base length hint : Nat) {P : Nat}
    (hcut : ∀ i, i < length → (before cmp x (get d a (base + i)) = true ↔ P ≤ i))
    (hP : P ≤ length) (hh : hint < length) : gallopRight cmp d a x base length hint = P := by
  unfold gallopRight
  dsimp only
  split
  · -- the cut is at or below the hint: gallop down until it is bracketed
    next hb =>
    have hPh : P ≤ hint := (hcut hint hh).1 hb
    obtain ⟨h1, h2, h3⟩ := widen_bracket (fun o => before cmp x (get d a (base + (hint - o))))
      (hint + 1) (length + 1) (hint + 1 - P) (by omega) (by omega) (by omega)
      fun o ho => by rw [hcut _ (by omega)]; omega
    exact searchRight_eq cmp d a x base (fun i _ h => hcut i (by omega)) (by omega) (by omega)
  · -- the cut is above the hint: gallop up until it is bracketed
    next hb =>
    have hPh : hint < P := Nat.lt_of_not_le fun hle => hb ((hcut hint hh).2 hle)
    obtain ⟨h1, h2, h3⟩ := widen_bracket (fun o => !before cmp x (get d a (base + (hint + o))))
      (length - hint) (length + 1) (P - hint) (by omega) (by omega) (by omega)
      fun o ho => by rw [Bool.not_eq_true', ← Bool.not_eq_true, hcut _ (by omega)]; omega
    exact searchRight_eq cmp d a x base (fun i _ h => hcut i (by omega)) (by omega) (by omega)

/-- A gallop for the first element that does not go before a key, from any hint inside
the stretch, lands on the cut. -/
theorem gallopLeft_eq (a : Array α) (x : α) (base length hint : Nat) {P : Nat}
    (hcut : ∀ i, i < length → (before cmp (get d a (base + i)) x = true ↔ i < P))
    (hP : P ≤ length) (hh : hint < length) : gallopLeft cmp d a x base length hint = P := by
  unfold gallopLeft
  dsimp only
  split
  · -- the cut is above the hint: gallop up
    next hb =>
    have hPh : hint < P := (hcut hint hh).1 hb
    obtain ⟨h1, h2, h3⟩ := widen_bracket (fun o => before cmp (get d a (base + (hint + o))) x)
      (length - hint) (length + 1) (P - hint) (by omega) (by omega) (by omega)
      fun o ho => by rw [hcut _ (by omega)]; omega
    exact searchLeft_eq cmp d a x base (fun i _ h => hcut i (by omega)) (by omega) (by omega)
  · -- the cut is at or below the hint: gallop down
    next hb =>
    have hPh : P ≤ hint := Nat.le_of_not_lt fun hlt => hb ((hcut hint hh).2 hlt)
    obtain ⟨h1, h2, h3⟩ := widen_bracket (fun o => !before cmp (get d a (base + (hint - o))) x)
      (hint + 1) (length + 1) (hint + 1 - P) (by omega) (by omega) (by omega)
      fun o ho => by rw [Bool.not_eq_true', ← Bool.not_eq_true, hcut _ (by omega)]; omega
    exact searchLeft_eq cmp d a x base (fun i _ h => hcut i (by omega)) (by omega) (by omega)

end Search

/-! ### Cuts of a sorted stretch -/

section Cut

variable (key : α → Int)

/-- A sorted list has a cut for every property that passes down the order: the
elements before it have the property, those after it do not. -/
theorem exists_cut (p : α → Prop) (hmono : ∀ y z, p y → key z ≤ key y → p z) :
    ∀ xs : List α, KeySorted key xs →
      ∃ P ≤ xs.length, ∀ i (hi : i < xs.length), (p xs[i] ↔ i < P)
  | [], _ => ⟨0, Nat.le_refl _, fun i hi => absurd hi (Nat.not_lt_zero i)⟩
  | x :: xs, hs => by
    obtain ⟨hx, hs⟩ := List.pairwise_cons.1 hs
    by_cases hp : p x
    · obtain ⟨P, hP, hiff⟩ := exists_cut p hmono xs hs
      refine ⟨P + 1, by simp; omega, fun i hi => ?_⟩
      cases i with
      | zero => simpa using hp
      | succ i => simpa using hiff i (by simpa using hi)
    · -- nothing passes: an element with the property would pass it down to the head
      refine ⟨0, Nat.zero_le _, fun i hi => ?_⟩
      cases i with
      | zero => simpa using hp
      | succ i =>
        simp only [List.getElem_cons_succ, Nat.not_lt_zero, iff_false]
        exact fun hpi => hp (hmono _ _ hpi (hx _ (List.getElem_mem _)))

/-- A cut given position by position splits the list into a front that has the
property and a back that has not. -/
theorem take_drop_of_cut {p : α → Prop} {xs : List α} {P : Nat} (hP : P ≤ xs.length)
    (hiff : ∀ i (hi : i < xs.length), (p xs[i] ↔ i < P)) :
    (∀ y ∈ xs.take P, p y) ∧ (∀ y ∈ xs.drop P, ¬p y) := by
  constructor
  · intro y hy
    obtain ⟨j, hj, rfl⟩ := List.getElem_of_mem hy
    simp only [List.length_take] at hj
    rw [List.getElem_take, hiff j (by omega)]
    omega
  · intro y hy
    obtain ⟨j, hj, rfl⟩ := List.getElem_of_mem hy
    simp only [List.length_drop] at hj
    rw [List.getElem_drop, hiff (P + j) (by omega)]
    omega

/-- Where an element goes among a sorted list by the first element it goes before: the
front is not after it, the back strictly after it. -/
def CutRight (xs : List α) (x : α) (k : Nat) : Prop :=
  k ≤ xs.length ∧ (∀ y ∈ xs.take k, key y ≤ key x) ∧ (∀ y ∈ xs.drop k, key x < key y)

/-- Where an element goes among a sorted list by the first element that does not go
before it: the front strictly before it, the back not before it. -/
def CutLeft (xs : List α) (x : α) (k : Nat) : Prop :=
  k ≤ xs.length ∧ (∀ y ∈ xs.take k, key y < key x) ∧ (∀ y ∈ xs.drop k, key x ≤ key y)

end Cut

theorem get_eq_slice (d : α) (a : Array α) {base length i : Nat} (hfit : base + length ≤ a.size)
    (hi : i < (slice a base length).length) :
    get d a (base + i) = (slice a base length)[i] := by
  simp only [slice_eq, List.getElem_take, List.getElem_drop]
  exact get_eq_getElem d a _ (by simp [slice_eq] at hi; simp; omega)

section Keyed

variable (cmp : α → α → Float) (d : α) (key : α → Int) {ok : α → Prop} (hcmp : Follows cmp key ok)
include hcmp

/-- On a sorted stretch, a gallop for the first element a key goes before finds where
the key goes after its equals. -/
theorem gallopRight_cut (a : Array α) (x : α) {base length : Nat} (hint : Nat)
    (hfit : base + length ≤ a.size) (hs : KeySorted key (slice a base length))
    (hh : hint < length) (hx : ok x) (hok : ∀ y ∈ slice a base length, ok y) :
    CutRight key (slice a base length) x (gallopRight cmp d a x base length hint) := by
  have hlen := length_slice a base length hfit
  obtain ⟨P, hP, hiff⟩ := exists_cut key (fun y => key y ≤ key x) (fun y z hy hz => by omega) _ hs
  have hg : gallopRight cmp d a x base length hint = P := by
    refine gallopRight_eq cmp d a x base length hint (fun i hi => ?_) (by omega) hh
    rw [get_eq_slice d a hfit (by omega), hcmp _ _ hx (hok _ (List.getElem_mem _)), decide_eq_true_iff]
    have := hiff i (by omega)
    omega
  obtain ⟨h1, h2⟩ := take_drop_of_cut (p := fun y => key y ≤ key x) hP hiff
  rw [hg]
  exact ⟨hP, h1, fun y hy => by have := h2 y hy; omega⟩

/-- On a sorted stretch, a gallop for the first element that does not go before a key
finds where the key goes before its equals. -/
theorem gallopLeft_cut (a : Array α) (x : α) {base length : Nat} (hint : Nat)
    (hfit : base + length ≤ a.size) (hs : KeySorted key (slice a base length))
    (hh : hint < length) (hx : ok x) (hok : ∀ y ∈ slice a base length, ok y) :
    CutLeft key (slice a base length) x (gallopLeft cmp d a x base length hint) := by
  have hlen := length_slice a base length hfit
  obtain ⟨P, hP, hiff⟩ := exists_cut key (fun y => key y < key x) (fun y z hy hz => by omega) _ hs
  have hg : gallopLeft cmp d a x base length hint = P := by
    refine gallopLeft_eq cmp d a x base length hint (fun i hi => ?_) (by omega) hh
    rw [get_eq_slice d a hfit (by omega), hcmp _ _ (hok _ (List.getElem_mem _)) hx, decide_eq_true_iff]
    exact hiff i (by omega)
  obtain ⟨h1, h2⟩ := take_drop_of_cut (p := fun y => key y < key x) hP hiff
  rw [hg]
  exact ⟨hP, h1, fun y hy => by have := h2 y hy; omega⟩

/-- On a sorted stretch, the binary search of an insertion finds where the key goes
after its equals. -/
theorem searchRight_cut (a : Array α) (x : α) {base length : Nat}
    (hfit : base + length ≤ a.size) (hs : KeySorted key (slice a base length)) (hx : ok x)
    (hok : ∀ y ∈ slice a base length, ok y) :
    CutRight key (slice a base length) x (searchRight cmp d a x base 0 length) := by
  have hlen := length_slice a base length hfit
  obtain ⟨P, hP, hiff⟩ := exists_cut key (fun y => key y ≤ key x) (fun y z hy hz => by omega) _ hs
  have hg : searchRight cmp d a x base 0 length = P := by
    refine searchRight_eq cmp d a x base (fun i _ hi => ?_) (Nat.zero_le _) (by omega)
    rw [get_eq_slice d a hfit (by omega), hcmp _ _ hx (hok _ (List.getElem_mem _)), decide_eq_true_iff]
    have := hiff i (by omega)
    omega
  obtain ⟨h1, h2⟩ := take_drop_of_cut (p := fun y => key y ≤ key x) hP hiff
  rw [hg]
  exact ⟨hP, h1, fun y hy => by have := h2 y hy; omega⟩

end Keyed

end LaneGate.Sorting
