import LaneGate.Sorting
/-!
# Merging by an integer key

A comparison is consistent when it follows an integer key: the first argument goes
first exactly when its key is smaller. The stable order such a comparison sorts into
is `keyLE`, and this module gathers what the correctness proof of the sort needs
about `List.merge` and `List.mergeSort` under it.

* A merge of two sorted lists can be cut where all of one side's front goes before
  the other side (`merge_append_front_left`, `merge_append_front_right`), and where
  all of one side's back goes after the other side (`merge_append_back_left`,
  `merge_append_back_right`). The merges of the sort take elements one at a time or
  a stretch at a time, from the front or from the back; each such step is one of
  these four cuts.
* Merge sort of two stretches is the merge of their sorts (`mergeSort_append`), for
  every total preorder: both sides sort the stretches' elements tagged with their
  positions, where the order is total and a sorted rearrangement is unique.
-/

namespace LaneGate.Sorting

variable {α : Type}

/-- Whether `a` may stay before `b` in the order of an integer key: its key is not
larger. -/
def keyLE (key : α → Int) (a b : α) : Bool := decide (key a ≤ key b)

/-- A comparison follows an integer key on the values `ok` accepts: between two of
them, the first goes first exactly when its key is smaller. -/
def Follows (cmp : α → α → Float) (key : α → Int) (ok : α → Prop) : Prop :=
  ∀ u v, ok u → ok v → before cmp u v = decide (key u < key v)

section Key

variable (key : α → Int)

@[simp] theorem keyLE_eq_true {a b : α} : keyLE key a b = true ↔ key a ≤ key b :=
  decide_eq_true_iff

theorem keyLE_eq_false {a b : α} : keyLE key a b = false ↔ key b < key a := by
  simp only [keyLE, decide_eq_false_iff_not]
  omega

theorem keyLE_trans (a b c : α) : keyLE key a b → keyLE key b c → keyLE key a c := by
  simp only [keyLE_eq_true]
  omega

theorem keyLE_total (a b : α) : (keyLE key a b || keyLE key b a) = true := by
  simp only [Bool.or_eq_true, keyLE_eq_true]
  omega

/-- A list in the order of a key: no element's key is above a later one's. -/
def KeySorted (xs : List α) : Prop := xs.Pairwise (fun a b => key a ≤ key b)

theorem keySorted_mergeSort (xs : List α) : KeySorted key (xs.mergeSort (keyLE key)) :=
  (List.pairwise_mergeSort (keyLE_trans key) (keyLE_total key) xs).imp
    fun h => (keyLE_eq_true key).1 h

theorem KeySorted.sublist {key : α → Int} {xs ys : List α} (h : KeySorted key ys)
    (hs : xs.Sublist ys) : KeySorted key xs :=
  List.Pairwise.sublist hs h

/-- A front that goes before every element of the other side is output first. -/
theorem merge_append_front_left {pre xs ys : List α} (h : ∀ a ∈ pre, ∀ y ∈ ys, key a ≤ key y) :
    (pre ++ xs).merge ys (keyLE key) = pre ++ xs.merge ys (keyLE key) := by
  induction pre with
  | nil => rfl
  | cons a pre ih =>
    cases ys with
    | nil => simp
    | cons y ys =>
      have hay : keyLE key a y = true := (keyLE_eq_true key).2 (h a (by simp) y (by simp))
      rw [List.cons_append, List.cons_merge_cons, if_pos hay,
        ih (fun a' ha' y' hy' => h a' (List.mem_cons_of_mem a ha') y' hy'), List.cons_append]

/-- A front of the second side strictly before every element of the first is output
first. -/
theorem merge_append_front_right {pre xs ys : List α} (h : ∀ b ∈ pre, ∀ x ∈ xs, key b < key x) :
    xs.merge (pre ++ ys) (keyLE key) = pre ++ xs.merge ys (keyLE key) := by
  induction pre with
  | nil => rfl
  | cons b pre ih =>
    cases xs with
    | nil => simp
    | cons x xs =>
      have hxb : keyLE key x b = false := (keyLE_eq_false key).2 (h b (by simp) x (by simp))
      rw [List.cons_append, List.cons_merge_cons, if_neg (by simp [hxb]),
        ih (fun b' hb' x' hx' => h b' (List.mem_cons_of_mem b hb') x' hx'), List.cons_append]

/-- A back of the second side that goes after every element of the first is output
last. -/
theorem merge_append_back_right {xs ys post : List α} (h : ∀ x ∈ xs, ∀ b ∈ post, key x ≤ key b) :
    xs.merge (ys ++ post) (keyLE key) = xs.merge ys (keyLE key) ++ post := by
  induction xs generalizing ys with
  | nil => simp
  | cons x xs ih =>
    induction ys with
    | nil =>
      rw [List.nil_append, List.merge_right,
        List.merge_of_le (fun a b ha hb => (keyLE_eq_true key).2 (h a ha b hb))]
    | cons y ys ihy =>
      rw [List.cons_append, List.cons_merge_cons, List.cons_merge_cons]
      split
      · rw [← List.cons_append, ih (fun x' hx' b hb => h x' (List.mem_cons_of_mem x hx') b hb)]
        rfl
      · rw [ihy]
        rfl

/-- A back of the first side that goes after every element of the first side's front
and strictly after every element of the second side is output last. -/
theorem merge_append_back_left {xs post ys : List α} (hx : ∀ x ∈ xs, ∀ a ∈ post, key x ≤ key a)
    (hy : ∀ y ∈ ys, ∀ a ∈ post, key y < key a) :
    (xs ++ post).merge ys (keyLE key) = xs.merge ys (keyLE key) ++ post := by
  induction xs generalizing ys with
  | nil =>
    have := @merge_append_front_right α key ys post [] (fun b hb a ha => hy b hb a ha)
    simpa using this
  | cons x xs ih =>
    induction ys with
    | nil => simp
    | cons y ys ihy =>
      rw [List.cons_append, List.cons_merge_cons, List.cons_merge_cons]
      split
      · rw [ih (fun x' hx' a ha => hx x' (List.mem_cons_of_mem x hx') a ha) hy]
        rfl
      · rw [← List.cons_append, ihy (fun y' hy' a ha => hy y' (List.mem_cons_of_mem y hy') a ha)]
        rfl

end Key

/-- Sorting elements tagged with their positions from any start, and dropping the
tags, is sorting the elements: shifting every tag leaves the tagged order as it is. -/
theorem mergeSort_zipIdx_from (le : α → α → Bool) (l : List α) (k : Nat) :
    ((l.zipIdx k).mergeSort (List.zipIdxLE le)).map (·.1) = l.mergeSort le := by
  have hshift : ∀ a ∈ l.zipIdx, ∀ b ∈ l.zipIdx, List.zipIdxLE le a b =
      List.zipIdxLE le (Prod.map id (· + k) a) (Prod.map id (· + k) b) := by
    intro a _ b _
    simp only [List.zipIdxLE, Prod.map_fst, id_eq, Prod.map_snd, Nat.add_le_add_iff_right]
  rw [← Nat.add_zero k, ← List.map_snd_add_zipIdx_eq_zipIdx, ← List.map_mergeSort hshift,
    List.map_map]
  exact List.mergeSort_zipIdx

/-- Merge sort of two stretches one after the other is the merge of their sorts, for
every total preorder. Tagged with their positions, the elements are sorted by a total
order, under which the sorted rearrangement is unique, and the merge keeps the first
stretch's elements before the second's among equals. -/
theorem mergeSort_append (le : α → α → Bool) (trans : ∀ a b c, le a b → le b c → le a c)
    (total : ∀ a b, (le a b || le b a) = true) (xs ys : List α) :
    (xs ++ ys).mergeSort le = (xs.mergeSort le).merge (ys.mergeSort le) le := by
  have htrans := List.zipIdxLE_trans trans
  have htotal := List.zipIdxLE_total total
  have hpos : ∀ x y, x ∈ xs.zipIdx.mergeSort (List.zipIdxLE le) →
      y ∈ (ys.zipIdx xs.length).mergeSort (List.zipIdxLE le) → x.2 ≤ y.2 := by
    intro x y hx hy
    rw [List.mem_mergeSort] at hx hy
    have := List.mem_zipIdx hx
    have := List.mem_zipIdx hy
    omega
  rw [← List.mergeSort_zipIdx, List.zipIdx_append, ← List.mergeSort_zipIdx (l := xs),
    ← mergeSort_zipIdx_from le ys xs.length, ← List.merge_stable _ _ hpos, Nat.zero_add]
  congr 1
  refine @List.Perm.eq_of_pairwise _ (fun a b => List.zipIdxLE le a b = true) _ _ ?_ ?_ ?_ ?_
  · -- two tagged elements each before the other have one position, so they are one
    have hz : xs.zipIdx ++ ys.zipIdx xs.length = (xs ++ ys).zipIdx := by
      rw [List.zipIdx_append, Nat.zero_add]
    rintro ⟨a, i⟩ ⟨b, j⟩ ha hb hab hba
    rw [List.mem_mergeSort, hz] at ha
    rw [List.mem_merge, List.mem_mergeSort, List.mem_mergeSort, ← List.mem_append, hz] at hb
    simp only [List.zipIdxLE] at hab hba
    split at hab <;> split at hba <;> simp_all
    have hij : i = j := Nat.le_antisymm hab hba
    subst hij
    have := List.mem_zipIdx ha
    have := List.mem_zipIdx hb
    simp_all
  · exact List.pairwise_mergeSort htrans htotal _
  · exact List.pairwise_merge htrans htotal _ _ (List.pairwise_mergeSort htrans htotal _)
      (List.pairwise_mergeSort htrans htotal _)
  · exact (List.mergeSort_perm _ _).trans
      (((List.mergeSort_perm _ _).append (List.mergeSort_perm _ _)).symm.trans
        (List.merge_perm_append _).symm)

end LaneGate.Sorting
