import LaneGate.Store.Tables
import Mathlib.Data.String.Basic
import Mathlib.Data.List.Induction
/-!
# Rows newest first

The tables list and trim their rows newest first by creation time (`newestFirst`),
inserting each row after those of the same time (`insertNewest`): a stable sort by
descending time. Here it is read as one:

* it reorders the rows and nothing else (`newestFirst_perm`), and puts them in
  descending order of time (`pairwise_newestFirst`);
* it commutes with every filter (`newestFirst_filter`): the rows that pass a test come
  newest first in the order they had among all rows;
* the newest `k` rows are kept as well by inserting one row into the newest `k` as by
  inserting it into all the rows (`take_insertNewest_take`), which is what lets a table
  cut after each write hold the newest `k` of everything ever written.
-/

namespace LaneGate.Store

variable {α : Type} (time : α → String)

theorem newestFirst_nil : newestFirst time ([] : List α) = [] := rfl

/-- Sorting one more row is inserting it into the sorted rows. -/
theorem newestFirst_append_singleton (rows : List α) (x : α) :
    newestFirst time (rows ++ [x]) = insertNewest time x (newestFirst time rows) := by
  simp only [newestFirst, List.foldl_append, List.foldl_cons, List.foldl_nil]

/-- A row goes first when the first row is older. -/
theorem insertNewest_of_head_lt {x : α} {l : List α} (h : ∀ y ∈ l.head?, time y < time x) :
    insertNewest time x l = x :: l := by
  cases l with
  | nil => rfl
  | cons y ys => exact if_pos (h y rfl)

theorem insertNewest_perm (x : α) (l : List α) : List.Perm (insertNewest time x l) (x :: l) := by
  induction l with
  | nil => exact List.Perm.refl _
  | cons y ys ih =>
    unfold insertNewest
    split
    · exact List.Perm.refl _
    · exact (ih.cons y).trans (List.Perm.swap x y ys)

theorem newestFirst_perm (rows : List α) : List.Perm (newestFirst time rows) rows := by
  induction rows using List.reverseRecOn with
  | nil => exact List.Perm.refl _
  | append_singleton rows x ih =>
    rw [newestFirst_append_singleton]
    exact (insertNewest_perm time x _).trans ((ih.cons x).trans (List.perm_append_singleton x rows).symm)

theorem length_newestFirst (rows : List α) : (newestFirst time rows).length = rows.length :=
  (newestFirst_perm time rows).length_eq

/-! ### Descending order -/

/-- Inserting a row keeps rows in descending order of time. -/
theorem pairwise_insertNewest (x : α) {l : List α} (h : l.Pairwise fun a b => time b ≤ time a) :
    (insertNewest time x l).Pairwise fun a b => time b ≤ time a := by
  induction l with
  | nil => exact List.pairwise_singleton _ x
  | cons y ys ih =>
    obtain ⟨hy, hys⟩ := List.pairwise_cons.1 h
    unfold insertNewest
    split
    · -- older first row: the new row leads, above every row
      rename_i hlt
      refine List.Pairwise.cons (fun z hz => ?_) h
      rcases List.mem_cons.1 hz with rfl | hz
      · exact le_of_lt hlt
      · exact le_trans (hy z hz) (le_of_lt hlt)
    · -- the new row goes further down, below `y`
      rename_i hge
      refine List.Pairwise.cons (fun z hz => ?_) (ih hys)
      rcases List.mem_cons.1 ((insertNewest_perm time x ys).subset hz) with rfl | hz
      · exact not_lt.1 hge
      · exact hy z hz

theorem pairwise_newestFirst (rows : List α) :
    (newestFirst time rows).Pairwise fun a b => time b ≤ time a := by
  induction rows using List.reverseRecOn with
  | nil => exact List.Pairwise.nil
  | append_singleton rows x ih =>
    rw [newestFirst_append_singleton]
    exact pairwise_insertNewest time x ih

/-! ### Filters -/

theorem filter_insertNewest_of_false {p : α → Bool} {x : α} (hx : p x = false) (l : List α) :
    (insertNewest time x l).filter p = l.filter p := by
  induction l with
  | nil => simp [insertNewest, hx]
  | cons y ys ih =>
    unfold insertNewest
    split
    · rw [List.filter_cons_of_neg (by simp [hx])]
    · rw [List.filter_cons, List.filter_cons, ih]

/-- On rows in descending order, inserting a row that passes a test and filtering can be
done in either order. -/
theorem filter_insertNewest {p : α → Bool} {x : α} (hx : p x = true) {l : List α}
    (h : l.Pairwise fun a b => time b ≤ time a) :
    (insertNewest time x l).filter p = insertNewest time x (l.filter p) := by
  induction l with
  | nil => simp [insertNewest, hx]
  | cons y ys ih =>
    obtain ⟨hy, hys⟩ := List.pairwise_cons.1 h
    by_cases hlt : time y < time x
    · rw [insertNewest, if_pos hlt, List.filter_cons_of_pos hx]
      by_cases hpy : p y = true
      · rw [List.filter_cons_of_pos hpy, insertNewest, if_pos hlt]
      · -- `y` is filtered out; the rows after it are older still
        rw [List.filter_cons_of_neg hpy, insertNewest_of_head_lt]
        intro z hz
        exact lt_of_le_of_lt (hy z (List.mem_of_mem_filter (List.mem_of_mem_head? hz))) hlt
    · rw [insertNewest, if_neg hlt]
      by_cases hpy : p y = true
      · rw [List.filter_cons_of_pos hpy, List.filter_cons_of_pos hpy, insertNewest, if_neg hlt, ih hys]
      · rw [List.filter_cons_of_neg hpy, List.filter_cons_of_neg hpy, ih hys]

/-- Sorting newest first commutes with every filter. -/
theorem newestFirst_filter (p : α → Bool) (rows : List α) :
    newestFirst time (rows.filter p) = (newestFirst time rows).filter p := by
  induction rows using List.reverseRecOn with
  | nil => rfl
  | append_singleton rows x ih =>
    rw [List.filter_append, newestFirst_append_singleton]
    cases hx : p x
    · rw [List.filter_singleton, hx, cond_false, List.append_nil, ih,
        filter_insertNewest_of_false time hx]
    · rw [List.filter_singleton, hx, cond_true, newestFirst_append_singleton, ih,
        filter_insertNewest time hx (pairwise_newestFirst time rows)]

/-! ### The newest `k` -/

theorem take_cons_take (y : α) (l : List α) (k : Nat) : (y :: l.take k).take k = (y :: l).take k := by
  cases k with
  | zero => rfl
  | succ k => rw [List.take_succ_cons, List.take_succ_cons, List.take_take, Nat.min_eq_left (Nat.le_succ k)]

/-- The newest `k` rows after an insertion are the newest `k` of the newest `k` before
it and the new row. -/
theorem take_insertNewest_take (x : α) (l : List α) (k : Nat) :
    (insertNewest time x (l.take k)).take k = (insertNewest time x l).take k := by
  induction l generalizing k with
  | nil => rw [List.take_nil]
  | cons y ys ih =>
    cases k with
    | zero => rfl
    | succ k =>
      rw [List.take_succ_cons]
      unfold insertNewest
      split
      · rw [List.take_succ_cons, List.take_succ_cons, take_cons_take]
      · rw [List.take_succ_cons, List.take_succ_cons, ih]

/-- The rows of a list of rows in descending order: the first `k` are at least as new as
every row after them. -/
theorem le_of_mem_take_of_mem_drop {l : List α} (h : l.Pairwise fun a b => time b ≤ time a)
    {k : Nat} {a b : α} (ha : a ∈ l.take k) (hb : b ∈ l.drop k) : time b ≤ time a := by
  rw [← List.take_append_drop k l] at h
  exact (List.pairwise_append.1 h).2.2 a ha b hb

end LaneGate.Store
