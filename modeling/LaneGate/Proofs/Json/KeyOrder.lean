import LaneGate.Proofs.Json.Roundtrip
import LaneGate.Json.Order
import Mathlib
/-!
# Values equal up to the order of their keys

Two values are the same up to key order when they differ only in the order of the
members of their objects and in the sign of their zeros (`Same`): their normal
forms, with every object's members sorted by key and every zero made positive, are
equal (`normal`). On values with distinct keys this is what matters: a value put in
key order (`inKeyOrder`) or in collation order (`keysSorted`) is the same as the
value, and a value written and read back is the same as the value
(`same_parse_render`).

The canonical text with sorted keys (`sortedText`) is the same for two values that
are the same up to key order, provided the collation tells their keys apart
(`sortedText_eq_of_same`): the sort by collation is stable, and keys that collate
equal keep the order they came in.
-/

/-! ## Collation as a lexicographic order -/

namespace LaneGate.Collate

/-- The base weights of a text's characters that are not ignored. -/
def baseKey (s : String) : List Nat :=
  (s.toList.filter fun c => (baseWeight c).isSome).filterMap baseWeight

/-- The case weights of a text's characters that are not ignored. -/
def caseKey (s : String) : List Nat :=
  (s.toList.filter fun c => (baseWeight c).isSome).map caseWeight

theorem compareWeights_eq (xs ys : List Nat) : compareWeights xs ys = Ord.compare xs ys := by
  induction xs generalizing ys with
  | nil => cases ys <;> rfl
  | cons x xs ih =>
    cases ys with
    | nil => rfl
    | cons y ys =>
      rw [List.compare_cons_cons, compareWeights, ih]
      rcases Nat.lt_trichotomy x y with h | rfl | h
      · rw [if_pos h, Nat.compare_eq_lt.2 h]
        rfl
      · rw [if_neg (Nat.lt_irrefl x), if_neg (Nat.lt_irrefl x), Std.ReflOrd.compare_self]
        rfl
      · rw [if_neg (Nat.lt_asymm h), if_pos h, Nat.compare_eq_gt.2 h]
        rfl

/-- Collation compares base weights first and case weights to break a tie. -/
theorem compare_eq_then (a b : String) :
    Collate.compare a b = (compareWeights (baseKey a) (baseKey b)).then
      (compareWeights (caseKey a) (caseKey b)) := rfl

theorem compare_eq_lex : Collate.compare = compareLex (compareOn baseKey) (compareOn caseKey) := by
  funext a b
  rw [compare_eq_then, compareWeights_eq, compareWeights_eq]
  rfl

theorem compare_self (a : String) : Collate.compare a a = .eq := by
  rw [compare_eq_lex]
  exact Std.ReflCmp.compare_self

theorem gt_iff_lt {a b : String} : Collate.compare a b = .gt ↔ Collate.compare b a = .lt := by
  rw [compare_eq_lex]
  exact Std.OrientedCmp.gt_iff_lt

theorem eq_comm {a b : String} : Collate.compare a b = .eq ↔ Collate.compare b a = .eq := by
  rw [compare_eq_lex]
  exact Std.OrientedCmp.eq_comm

theorem lt_trans {a b c : String} (hab : Collate.compare a b = .lt) (hbc : Collate.compare b c = .lt) :
    Collate.compare a c = .lt := by
  rw [compare_eq_lex] at *
  exact Std.TransCmp.lt_trans hab hbc


/-! ## Sorting by collation -/

section Sorting

variable {α : Type} (key : α → String)

/-- Two items whose keys the collation tells apart. -/
def Apart (a b : α) : Prop := Collate.compare (key a) (key b) ≠ .eq

/-- An item whose key collates before another's. -/
def Before (a b : α) : Prop := Collate.compare (key a) (key b) = .lt

variable {key}

theorem Apart.symm {a b : α} (h : Apart key a b) : Apart key b a := fun h' => h (eq_comm.1 h')

theorem Before.apart {a b : α} (h : Before key a b) : Apart key a b := by
  unfold Before at h
  unfold Apart
  rw [h]
  decide

variable (key)

theorem insertBy_perm {α : Type} (key : α → String) (x : α) (l : List α) :
    (insertBy key x l).Perm (x :: l) := by
  induction l with
  | nil => rfl
  | cons y ys ih =>
    unfold insertBy
    split
    · rfl
    · exact (ih.cons y).trans (List.Perm.swap x y ys)

theorem foldl_insertBy_perm {α : Type} (key : α → String) (l acc : List α) :
    (l.foldl (fun acc x => insertBy key x acc) acc).Perm (acc ++ l) := by
  induction l generalizing acc with
  | nil => simp
  | cons x l ih =>
    rw [List.foldl_cons]
    exact (ih _).trans (((insertBy_perm key x acc).append_right l).trans List.perm_middle.symm)

/-- Sorting by collation is an arrangement of the items. -/
theorem sortBy_perm {α : Type} (key : α → String) (l : List α) : (sortBy key l).Perm l := by
  have h := foldl_insertBy_perm key l []
  rwa [List.nil_append] at h

/-- Inserting an item apart from the others into a sorted list keeps it sorted. -/
theorem insertBy_sorted (x : α) {l : List α} (hl : l.Pairwise (Before key))
    (hx : ∀ y ∈ l, Apart key x y) : (insertBy key x l).Pairwise (Before key) := by
  induction l with
  | nil => simp [insertBy]
  | cons y ys ih =>
    obtain ⟨hy, hys⟩ := List.pairwise_cons.1 hl
    unfold insertBy
    split
    · -- before the first item: before every item
      rename_i hlt
      have hlt' : Collate.compare (key x) (key y) = .lt := beq_iff_eq.1 hlt
      refine List.pairwise_cons.2 ⟨fun z hz => ?_, hl⟩
      rcases List.mem_cons.1 hz with rfl | hz
      · exact hlt'
      · exact lt_trans hlt' (hy z hz)
    · -- after the first item, which then comes before it
      rename_i hnlt
      have hgt : Collate.compare (key y) (key x) = .lt := by
        cases h : Collate.compare (key x) (key y) with
        | lt => simp [h] at hnlt
        | eq => exact absurd h (hx y List.mem_cons_self)
        | gt => exact gt_iff_lt.1 h
      refine List.pairwise_cons.2 ⟨fun z hz => ?_, ih hys (fun z hz => hx z (List.mem_cons_of_mem _ hz))⟩
      rcases List.mem_cons.1 ((insertBy_perm key x ys).mem_iff.1 hz) with rfl | hz
      · exact hgt
      · exact hy z hz

/-- Items whose keys the collation tells apart are sorted strictly. -/
theorem sortBy_sorted {l : List α} (hl : l.Pairwise (Apart key)) : (sortBy key l).Pairwise (Before key) := by
  -- the items inserted so far are sorted, and apart from each other and from those to come
  have h : ∀ l acc : List α, acc.Pairwise (Before key) → (acc ++ l).Pairwise (Apart key) →
      (l.foldl (fun acc x => insertBy key x acc) acc).Pairwise (Before key) := by
    intro l
    induction l with
    | nil =>
      intro acc hacc _
      simpa using hacc
    | cons x l ih =>
      intro acc hacc happ
      rw [List.foldl_cons]
      refine ih _ (insertBy_sorted key x hacc fun y hy => ?_) ?_
      · exact (List.pairwise_append.1 happ).2.2 y hy x List.mem_cons_self |>.symm
      · refine ((((insertBy_perm key x acc).append_right l).trans List.perm_middle.symm).pairwise_iff
          (fun h => Apart.symm h)).2 happ
  exact h l [] List.Pairwise.nil (by simpa using hl)

/-- Two arrangements of items apart from each other sort to one list. -/
theorem sortBy_eq_of_perm {l l' : List α} (hp : l.Perm l') (hl : l.Pairwise (Apart key)) :
    sortBy key l = sortBy key l' :=
  List.Perm.eq_of_pairwise
    (fun _ _ _ _ hab hba => absurd (gt_iff_lt.2 hba) (by rw [show Collate.compare _ _ = _ from hab]; decide))
    (sortBy_sorted key hl) (sortBy_sorted key ((hp.pairwise_iff fun h => Apart.symm h).1 hl))
    ((sortBy_perm key l).trans (hp.trans (sortBy_perm key l').symm))

/-- A strictly sorted arrangement of items apart from each other is their sort. -/
theorem eq_sortBy_of_sorted {m l : List α} (hp : m.Perm l) (hm : m.Pairwise (Before key)) :
    m = sortBy key l :=
  List.Perm.eq_of_pairwise
    (fun _ _ _ _ hab hba => absurd (gt_iff_lt.2 hba) (by rw [show Collate.compare _ _ = _ from hab]; decide))
    hm (sortBy_sorted key ((hp.pairwise_iff fun h => Apart.symm h).1 (hm.imp fun h => h.apart)))
    (hp.trans (sortBy_perm key l).symm)

end Sorting

end LaneGate.Collate

namespace LaneGate.Json

open Decimal

/-! ## The normal form -/

/-- Members in order of their keys. -/
def byKey (a b : String × Json) : Bool := decide (a.1 ≤ b.1)

mutual
/-- The value with every object's members sorted by key and every zero positive. -/
def normal : Json → Json
  | .num x => .num (unsignZero x)
  | .arr xs => .arr (normalItems xs)
  | .obj ms => .obj ((normalMembers ms).mergeSort byKey)
  | j => j

/-- The normal forms of the items. -/
def normalItems : List Json → List Json
  | [] => []
  | x :: xs => normal x :: normalItems xs

/-- The members with their values in normal form. -/
def normalMembers : List (String × Json) → List (String × Json)
  | [] => []
  | (k, v) :: ms => (k, normal v) :: normalMembers ms
end

/-- Two values are the same up to the order of their keys and the sign of their zeros. -/
def Same (a b : Json) : Prop := normal a = normal b

theorem normalMembers_eq_map (ms : List (String × Json)) :
    normalMembers ms = ms.map fun m => (m.1, normal m.2) := by
  induction ms with
  | nil => rfl
  | cons m ms ih =>
    obtain ⟨k, v⟩ := m
    simp [normalMembers, ih]

theorem map_fst_normalMembers (ms : List (String × Json)) :
    (normalMembers ms).map Prod.fst = ms.map Prod.fst := by
  rw [normalMembers_eq_map, List.map_map]
  rfl

/-- Sorting members with distinct keys by key gives one order for all their arrangements. -/
theorem mergeSort_byKey_eq {l l' : List (String × Json)} (hp : l.Perm l')
    (hk : (l.map Prod.fst).Nodup) : l.mergeSort byKey = l'.mergeSort byKey := by
  have trans : ∀ a b c : String × Json, byKey a b → byKey b c → byKey a c := by
    simp only [byKey, decide_eq_true_eq]
    exact fun _ _ _ => le_trans
  have total : ∀ a b : String × Json, (byKey a b || byKey b a) = true := by
    intro a b
    simpa [byKey] using le_total a.1 b.1
  refine List.Perm.eq_of_pairwise (fun a b ha hb hab hba => ?_) (List.pairwise_mergeSort trans total l)
    (List.pairwise_mergeSort trans total l')
    ((List.mergeSort_perm l _).trans (hp.trans (List.mergeSort_perm l' _).symm))
  simp only [byKey, decide_eq_true_eq] at hab hba
  rw [List.mem_mergeSort] at ha hb
  exact List.inj_on_of_nodup_map hk ha (hp.symm.mem_iff.1 hb) (le_antisymm hab hba)

/-- Objects whose members are arrangements of one another, with distinct keys, have
one normal form. -/
theorem normal_obj_of_perm {l l' : List (String × Json)} (hp : l.Perm l')
    (hk : (l.map Prod.fst).Nodup) : normal (.obj l) = normal (.obj l') := by
  simp only [normal]
  congr 1
  refine mergeSort_byKey_eq ?_ (by rw [map_fst_normalMembers]; exact hk)
  rw [normalMembers_eq_map, normalMembers_eq_map]
  exact hp.map _

/-! ## Arrangements of members -/

theorem insertIndexed_perm {α : Type} (m : Nat × (String × α)) (l : List (Nat × (String × α))) :
    (insertIndexed m l).Perm (m :: l) := by
  induction l with
  | nil => rfl
  | cons x xs ih =>
    unfold insertIndexed
    split
    · rfl
    · exact (ih.cons x).trans (List.Perm.swap m x xs)

theorem foldl_insertIndexed_perm {α : Type} (l acc : List (Nat × (String × α))) :
    (l.foldl (fun acc m => insertIndexed m acc) acc).Perm (acc ++ l) := by
  induction l generalizing acc with
  | nil => simp
  | cons m l ih =>
    rw [List.foldl_cons]
    exact (ih _).trans (((insertIndexed_perm m acc).append_right l).trans List.perm_middle.symm)

theorem map_snd_filterMap_arrayIndex {α : Type} (ms : List (String × α)) :
    (ms.filterMap fun m => (arrayIndex? m.1).map (·, m)).map (·.2) =
      ms.filter fun m => (arrayIndex? m.1).isSome := by
  induction ms with
  | nil => rfl
  | cons m ms ih =>
    cases h : arrayIndex? m.1 with
    | none => simp [h, ih]
    | some n => simp [h, ih]

/-- Key order is an arrangement of the members. -/
theorem keyOrdered_perm {α : Type} (ms : List (String × α)) : (keyOrdered ms).Perm ms := by
  unfold keyOrdered
  have h := ((foldl_insertIndexed_perm (ms.filterMap fun m => (arrayIndex? m.1).map (·, m)) []).map
    (·.2)).append_right (ms.filter fun m => (arrayIndex? m.1).isNone)
  rw [List.nil_append, map_snd_filterMap_arrayIndex] at h
  refine h.trans ?_
  have hnone : (fun m : String × α => (arrayIndex? m.1).isNone) = fun m => !(arrayIndex? m.1).isSome := by
    funext m
    cases arrayIndex? m.1 <;> rfl
  rw [hnone]
  exact List.filter_append_perm _ ms

theorem map_fst_inKeyOrderMembers (ms : List (String × Json)) :
    (inKeyOrderMembers ms).map Prod.fst = ms.map Prod.fst := by
  induction ms with
  | nil => rfl
  | cons m ms ih =>
    obtain ⟨k, v⟩ := m
    simp [inKeyOrderMembers, ih]

theorem map_fst_keysSortedMembers (ms : List (String × Json)) :
    (keysSortedMembers ms).map Prod.fst = ms.map Prod.fst := by
  induction ms with
  | nil => rfl
  | cons m ms ih =>
    obtain ⟨k, v⟩ := m
    simp [keysSortedMembers, ih]

/-! ## What is the same up to key order -/

theorem unsignZero_unsignZero (x : Float) : unsignZero (unsignZero x) = unsignZero x := by
  unfold unsignZero
  by_cases h : (Binary.ofFloat x).mant = 0
  · rw [if_pos h, if_pos (by decide)]
  · rw [if_neg h, if_neg h]

mutual
/-- Zeros made positive leave the normal form as it is. -/
theorem normal_unsignZeros (v : Json) : normal (unsignZeros v) = normal v := by
  cases v with
  | null => rfl
  | bool b => rfl
  | num x => simp only [unsignZeros, normal, unsignZero_unsignZero]
  | str s => rfl
  | arr xs => simp only [unsignZeros, normal, normalItems_unsignZerosItems xs]
  | obj ms => simp only [unsignZeros, normal, normalMembers_unsignZerosMembers ms]

theorem normalItems_unsignZerosItems (xs : List Json) :
    normalItems (unsignZerosItems xs) = normalItems xs := by
  cases xs with
  | nil => rfl
  | cons x xs => simp only [unsignZerosItems, normalItems, normal_unsignZeros x,
      normalItems_unsignZerosItems xs]

theorem normalMembers_unsignZerosMembers (ms : List (String × Json)) :
    normalMembers (unsignZerosMembers ms) = normalMembers ms := by
  cases ms with
  | nil => rfl
  | cons m ms =>
    obtain ⟨k, v⟩ := m
    simp only [unsignZerosMembers, normalMembers, normal_unsignZeros v,
      normalMembers_unsignZerosMembers ms]
end

mutual
/-- A value with distinct keys put in key order is the same as the value. -/
theorem normal_inKeyOrder (v : Json) (hd : v.distinctKeys = true) : normal (inKeyOrder v) = normal v := by
  cases v with
  | null => rfl
  | bool b => rfl
  | num x => rfl
  | str s => rfl
  | arr xs =>
    simp only [distinctKeys] at hd
    simp only [inKeyOrder, normal, normalItems_inKeyOrderItems xs hd]
  | obj ms =>
    simp only [distinctKeys, Bool.and_eq_true, decide_eq_true_eq] at hd
    have hk : ((inKeyOrderMembers ms).map Prod.fst).Nodup := by
      rw [map_fst_inKeyOrderMembers]
      exact hd.1
    show normal (.obj (keyOrdered (inKeyOrderMembers ms))) = normal (.obj ms)
    rw [normal_obj_of_perm (keyOrdered_perm _) (((keyOrdered_perm _).map Prod.fst).nodup_iff.2 hk)]
    simp only [normal, normalMembers_inKeyOrderMembers ms hd.2]

theorem normalItems_inKeyOrderItems (xs : List Json) (hd : distinctKeysItems xs = true) :
    normalItems (inKeyOrderItems xs) = normalItems xs := by
  cases xs with
  | nil => rfl
  | cons x xs =>
    simp only [distinctKeysItems, Bool.and_eq_true] at hd
    simp only [inKeyOrderItems, normalItems, normal_inKeyOrder x hd.1,
      normalItems_inKeyOrderItems xs hd.2]

theorem normalMembers_inKeyOrderMembers (ms : List (String × Json))
    (hd : distinctKeysMembers ms = true) : normalMembers (inKeyOrderMembers ms) = normalMembers ms := by
  cases ms with
  | nil => rfl
  | cons m ms =>
    obtain ⟨k, v⟩ := m
    simp only [distinctKeysMembers, Bool.and_eq_true] at hd
    simp only [inKeyOrderMembers, normalMembers, normal_inKeyOrder v hd.1.2,
      normalMembers_inKeyOrderMembers ms hd.2]
end

mutual
/-- A value with distinct keys put in collation order is the same as the value. -/
theorem normal_keysSorted (v : Json) (hd : v.distinctKeys = true) : normal (keysSorted v) = normal v := by
  cases v with
  | null => rfl
  | bool b => rfl
  | num x => rfl
  | str s => rfl
  | arr xs =>
    simp only [distinctKeys] at hd
    simp only [keysSorted, normal, normalItems_keysSortedItems xs hd]
  | obj ms =>
    simp only [distinctKeys, Bool.and_eq_true, decide_eq_true_eq] at hd
    have hk : ((keysSortedMembers ms).map Prod.fst).Nodup := by
      rw [map_fst_keysSortedMembers]
      exact hd.1
    have hp := (Collate.sortBy_perm (·.1) _).trans (keyOrdered_perm (keysSortedMembers ms))
    show normal (.obj (Collate.sortBy (·.1) (keyOrdered (keysSortedMembers ms)))) = normal (.obj ms)
    rw [normal_obj_of_perm hp ((hp.map Prod.fst).nodup_iff.2 hk)]
    simp only [normal, normalMembers_keysSortedMembers ms hd.2]

theorem normalItems_keysSortedItems (xs : List Json) (hd : distinctKeysItems xs = true) :
    normalItems (keysSortedItems xs) = normalItems xs := by
  cases xs with
  | nil => rfl
  | cons x xs =>
    simp only [distinctKeysItems, Bool.and_eq_true] at hd
    simp only [keysSortedItems, normalItems, normal_keysSorted x hd.1,
      normalItems_keysSortedItems xs hd.2]

theorem normalMembers_keysSortedMembers (ms : List (String × Json))
    (hd : distinctKeysMembers ms = true) : normalMembers (keysSortedMembers ms) = normalMembers ms := by
  cases ms with
  | nil => rfl
  | cons m ms =>
    obtain ⟨k, v⟩ := m
    simp only [distinctKeysMembers, Bool.and_eq_true] at hd
    simp only [keysSortedMembers, normalMembers, normal_keysSorted v hd.1.2,
      normalMembers_keysSortedMembers ms hd.2]
end



/-! ## What two values the same up to key order share -/

theorem isFinite_of_mant_eq_zero {x : Float} (h : (Binary.ofFloat x).mant = 0) : isFinite x = true := by
  unfold Binary.ofFloat fields at h
  unfold isFinite fields
  simp only [Nat.pow_eq, fracBits, bne_iff_ne, ne_eq] at h ⊢
  generalize x.toBits.toNat = B at h ⊢
  by_cases hz : B / 2 ^ 52 % 2048 = 0
  · omega
  · simp only [hz, if_false] at h
    omega

theorem isFinite_unsignZero (x : Float) : isFinite (unsignZero x) = isFinite x := by
  unfold unsignZero
  by_cases h : (Binary.ofFloat x).mant = 0
  · rw [if_pos h, isFinite_of_mant_eq_zero h]
    decide
  · rw [if_neg h]

theorem allFiniteMembers_iff (ms : List (String × Json)) :
    allFiniteMembers ms = true ↔ ∀ m ∈ ms, m.2.allFinite = true := by
  induction ms with
  | nil => simp [allFiniteMembers]
  | cons m ms ih =>
    obtain ⟨k, v⟩ := m
    simp [allFiniteMembers, ih]

theorem allFiniteMembers_perm {l l' : List (String × Json)} (hp : l.Perm l') :
    allFiniteMembers l = allFiniteMembers l' := by
  rw [Bool.eq_iff_iff, allFiniteMembers_iff, allFiniteMembers_iff]
  exact ⟨fun h m hm => h m (hp.mem_iff.2 hm), fun h m hm => h m (hp.mem_iff.1 hm)⟩

mutual
/-- The normal form has finite numbers exactly when the value has. -/
theorem allFinite_normal (v : Json) : (normal v).allFinite = v.allFinite := by
  cases v with
  | null => rfl
  | bool b => rfl
  | num x => exact isFinite_unsignZero x
  | str s => rfl
  | arr xs => exact allFiniteItems_normalItems xs
  | obj ms =>
    show allFiniteMembers ((normalMembers ms).mergeSort byKey) = allFiniteMembers ms
    rw [allFiniteMembers_perm (List.mergeSort_perm _ _), allFiniteMembers_normalMembers ms]

theorem allFiniteItems_normalItems (xs : List Json) :
    allFiniteItems (normalItems xs) = allFiniteItems xs := by
  cases xs with
  | nil => rfl
  | cons x xs =>
    simp only [normalItems, allFiniteItems, allFinite_normal x, allFiniteItems_normalItems xs]

theorem allFiniteMembers_normalMembers (ms : List (String × Json)) :
    allFiniteMembers (normalMembers ms) = allFiniteMembers ms := by
  cases ms with
  | nil => rfl
  | cons m ms =>
    obtain ⟨k, v⟩ := m
    simp only [normalMembers, allFiniteMembers, allFinite_normal v, allFiniteMembers_normalMembers ms]
end

/-- Values the same up to key order have finite numbers alike. -/
theorem Same.allFinite_eq {a b : Json} (h : Same a b) : a.allFinite = b.allFinite := by
  rw [← allFinite_normal a, ← allFinite_normal b, h]


theorem distinctKeysMembers_perm {l l' : List (String × Json)} (hp : l.Perm l') :
    distinctKeysMembers l = distinctKeysMembers l' := by
  rw [Bool.eq_iff_iff, distinctKeysMembers_iff, distinctKeysMembers_iff]
  exact ⟨fun h m hm => h m (hp.mem_iff.2 hm), fun h m hm => h m (hp.mem_iff.1 hm)⟩

mutual
/-- The normal form has distinct keys exactly when the value has. -/
theorem distinctKeys_normal (v : Json) : (normal v).distinctKeys = v.distinctKeys := by
  cases v with
  | null => rfl
  | bool b => rfl
  | num x => rfl
  | str s => rfl
  | arr xs => exact distinctKeysItems_normalItems xs
  | obj ms =>
    have hk : (((normalMembers ms).mergeSort byKey).map Prod.fst).Nodup ↔ (ms.map Prod.fst).Nodup := by
      rw [← map_fst_normalMembers ms]
      exact ((List.mergeSort_perm _ _).map _).nodup_iff
    show (decide (((normalMembers ms).mergeSort byKey).map Prod.fst).Nodup &&
        distinctKeysMembers ((normalMembers ms).mergeSort byKey)) =
      (decide (ms.map Prod.fst).Nodup && distinctKeysMembers ms)
    rw [distinctKeysMembers_perm (List.mergeSort_perm _ _), distinctKeysMembers_normalMembers ms]
    simp only [hk]

theorem distinctKeysItems_normalItems (xs : List Json) :
    distinctKeysItems (normalItems xs) = distinctKeysItems xs := by
  cases xs with
  | nil => rfl
  | cons x xs =>
    simp only [normalItems, distinctKeysItems, distinctKeys_normal x, distinctKeysItems_normalItems xs]

theorem distinctKeysMembers_normalMembers (ms : List (String × Json)) :
    distinctKeysMembers (normalMembers ms) = distinctKeysMembers ms := by
  cases ms with
  | nil => rfl
  | cons m ms =>
    obtain ⟨k, v⟩ := m
    simp only [normalMembers, distinctKeysMembers, distinctKeys_normal v,
      distinctKeysMembers_normalMembers ms]
end

/-- Values the same up to key order have distinct keys alike. -/
theorem Same.distinctKeys_eq {a b : Json} (h : Same a b) : a.distinctKeys = b.distinctKeys := by
  rw [← distinctKeys_normal a, ← distinctKeys_normal b, h]

/-! ## Writing back in key order or in collation order -/

/-- **A value whose numbers are finite and whose keys are distinct, written in key
order and read back, is the same as the value.** -/
theorem parse_orderedText {v : Json} (hf : v.allFinite = true) (hd : v.distinctKeys = true) :
    ∃ w, parse (orderedText v) = some w ∧ Same w v := by
  have hs : Same (inKeyOrder v) v := normal_inKeyOrder v hd
  refine ⟨(inKeyOrder v).unsignZeros, parse_render (hs.allFinite_eq ▸ hf) (hs.distinctKeys_eq ▸ hd), ?_⟩
  exact (normal_unsignZeros _).trans hs

/-- **A value whose numbers are finite and whose keys are distinct, written with its
keys sorted and read back, is the same as the value.** -/
theorem parse_sortedText {v : Json} (hf : v.allFinite = true) (hd : v.distinctKeys = true) :
    ∃ w, parse (sortedText v) = some w ∧ Same w v := by
  have hs : Same (keysSorted v) v := normal_keysSorted v hd
  refine ⟨(keysSorted v).unsignZeros, parse_render (hs.allFinite_eq ▸ hf) (hs.distinctKeys_eq ▸ hd), ?_⟩
  exact (normal_unsignZeros _).trans hs


/-! ## The canonical text -/

mutual
/-- Every object of the value has keys the collation tells apart. -/
def keysCollateApart : Json → Bool
  | .arr xs => keysCollateApartItems xs
  | .obj ms => decide ((ms.map Prod.fst).Pairwise fun k k' => Collate.compare k k' ≠ .eq) &&
      keysCollateApartMembers ms
  | _ => true

/-- Every object of the items has keys the collation tells apart. -/
def keysCollateApartItems : List Json → Bool
  | [] => true
  | x :: xs => keysCollateApart x && keysCollateApartItems xs

/-- Every object of the members' values has keys the collation tells apart. -/
def keysCollateApartMembers : List (String × Json) → Bool
  | [] => true
  | (_, v) :: ms => keysCollateApart v && keysCollateApartMembers ms
end

theorem unsignZerosMembers_eq_map (ms : List (String × Json)) :
    unsignZerosMembers ms = ms.map fun m => (m.1, unsignZeros m.2) := by
  induction ms with
  | nil => rfl
  | cons m ms ih =>
    obtain ⟨k, v⟩ := m
    simp [unsignZerosMembers, ih]

theorem keysSortedMembers_eq_map (ms : List (String × Json)) :
    keysSortedMembers ms = ms.map fun m => (m.1, keysSorted m.2) := by
  induction ms with
  | nil => rfl
  | cons m ms ih =>
    obtain ⟨k, v⟩ := m
    simp [keysSortedMembers, ih]

mutual
/-- With keys the collation tells apart, the value in collation order is the normal
form in collation order, the sign of zeros aside. -/
theorem unsignZeros_keysSorted (v : Json) (hc : v.keysCollateApart = true) :
    unsignZeros (keysSorted v) = keysSorted (normal v) := by
  cases v with
  | null => rfl
  | bool b => rfl
  | num x => rfl
  | str s => rfl
  | arr xs =>
    simp only [keysCollateApart] at hc
    simp only [keysSorted, normal, unsignZeros, unsignZerosItems_keysSortedItems xs hc]
  | obj ms =>
    simp only [keysCollateApart, Bool.and_eq_true, decide_eq_true_eq] at hc
    obtain ⟨hap, hcm⟩ := hc
    have hapart : ∀ l : List (String × Json), (l.map Prod.fst).Perm (ms.map Prod.fst) →
        l.Pairwise (Collate.Apart Prod.fst) := fun l hl =>
      (List.pairwise_map (f := Prod.fst)).1 ((hl.pairwise_iff fun h h' => h (Collate.eq_comm.1 h')).2 hap)
    have hsame := unsignZerosMembers_keysSortedMembers ms hcm
    have hL : (keysSortedMembers (normalMembers ms)).map Prod.fst = ms.map Prod.fst := by
      rw [map_fst_keysSortedMembers, map_fst_normalMembers]
    have hK := keyOrdered_perm (keysSortedMembers ms)
    show Json.obj (unsignZerosMembers (Collate.sortBy (·.1) (keyOrdered (keysSortedMembers ms)))) =
      Json.obj (Collate.sortBy (·.1) (keyOrdered (keysSortedMembers ((normalMembers ms).mergeSort byKey))))
    congr 1
    calc unsignZerosMembers (Collate.sortBy (·.1) (keyOrdered (keysSortedMembers ms)))
        = Collate.sortBy (·.1) (keysSortedMembers (normalMembers ms)) := by
          apply Collate.eq_sortBy_of_sorted
          · rw [← hsame, unsignZerosMembers_eq_map, unsignZerosMembers_eq_map]
            exact ((Collate.sortBy_perm _ _).trans hK).map _
          · rw [unsignZerosMembers_eq_map, List.pairwise_map]
            exact Collate.sortBy_sorted _ (hapart _ (by rw [← map_fst_keysSortedMembers ms]; exact hK.map _))
      _ = Collate.sortBy (·.1) (keyOrdered (keysSortedMembers ((normalMembers ms).mergeSort byKey))) := by
          apply Collate.sortBy_eq_of_perm
          · rw [keysSortedMembers_eq_map, keysSortedMembers_eq_map]
            exact (((List.mergeSort_perm _ _).map _).symm).trans (keyOrdered_perm _).symm
          · exact hapart _ (by rw [hL])

theorem unsignZerosItems_keysSortedItems (xs : List Json) (hc : keysCollateApartItems xs = true) :
    unsignZerosItems (keysSortedItems xs) = keysSortedItems (normalItems xs) := by
  cases xs with
  | nil => rfl
  | cons x xs =>
    simp only [keysCollateApartItems, Bool.and_eq_true] at hc
    simp only [keysSortedItems, normalItems, unsignZerosItems, unsignZeros_keysSorted x hc.1,
      unsignZerosItems_keysSortedItems xs hc.2]

theorem unsignZerosMembers_keysSortedMembers (ms : List (String × Json))
    (hc : keysCollateApartMembers ms = true) :
    unsignZerosMembers (keysSortedMembers ms) = keysSortedMembers (normalMembers ms) := by
  cases ms with
  | nil => rfl
  | cons m ms =>
    obtain ⟨k, v⟩ := m
    simp only [keysCollateApartMembers, Bool.and_eq_true] at hc
    simp only [keysSortedMembers, normalMembers, unsignZerosMembers, unsignZeros_keysSorted v hc.1,
      unsignZerosMembers_keysSortedMembers ms hc.2]
end

/-- A zero is written `0` whatever its sign. -/
theorem numberJson_unsignZero (x : Float) : numberJson (unsignZero x) = numberJson x := by
  unfold unsignZero
  by_cases h : (Binary.ofFloat x).mant = 0
  · have hx := isFinite_of_mant_eq_zero h
    rw [if_pos h]
    have hzero : numberJson 0.0 = "0" := by decide
    rw [hzero, numberJson, if_pos hx, numberText, if_neg (by rw [isNaN_of_isFinite hx]; decide),
      if_neg (by rw [hx]; decide)]
    dsimp only
    rw [if_pos h]
  · rw [if_neg h]

mutual
/-- Zeros are written alike whatever their sign. -/
theorem render_unsignZeros (v : Json) : render (unsignZeros v) = render v := by
  cases v with
  | null => rfl
  | bool b => rfl
  | num x => exact numberJson_unsignZero x
  | str s => rfl
  | arr xs =>
    show "[" ++ renderItems (unsignZerosItems xs) ++ "]" = "[" ++ renderItems xs ++ "]"
    rw [renderItems_unsignZerosItems xs]
  | obj ms =>
    show "\x7b" ++ renderMembers (unsignZerosMembers ms) ++ "\x7d" = "\x7b" ++ renderMembers ms ++ "\x7d"
    rw [renderMembers_unsignZerosMembers ms]

theorem renderItems_unsignZerosItems (xs : List Json) :
    renderItems (unsignZerosItems xs) = renderItems xs := by
  cases xs with
  | nil => rfl
  | cons x xs =>
    cases xs with
    | nil => exact render_unsignZeros x
    | cons y ys =>
      show render (unsignZeros x) ++ "," ++ renderItems (unsignZerosItems (y :: ys)) =
        render x ++ "," ++ renderItems (y :: ys)
      rw [render_unsignZeros x, renderItems_unsignZerosItems (y :: ys)]

theorem renderMembers_unsignZerosMembers (ms : List (String × Json)) :
    renderMembers (unsignZerosMembers ms) = renderMembers ms := by
  cases ms with
  | nil => rfl
  | cons m ms =>
    obtain ⟨k, v⟩ := m
    cases ms with
    | nil =>
      show quote (Text.ofString k) ++ ":" ++ render (unsignZeros v) = quote (Text.ofString k) ++ ":" ++ render v
      rw [render_unsignZeros v]
    | cons m' ms' =>
      show quote (Text.ofString k) ++ ":" ++ render (unsignZeros v) ++ "," ++
          renderMembers (unsignZerosMembers (m' :: ms')) =
        quote (Text.ofString k) ++ ":" ++ render v ++ "," ++ renderMembers (m' :: ms')
      rw [render_unsignZeros v, renderMembers_unsignZerosMembers (m' :: ms')]
end

/-- **Values the same up to key order have one canonical text**, when the collation
tells the keys of each apart. -/
theorem sortedText_eq_of_same {a b : Json} (ha : a.keysCollateApart = true)
    (hb : b.keysCollateApart = true) (h : Same a b) : sortedText a = sortedText b := by
  unfold sortedText
  rw [← render_unsignZeros (keysSorted a), unsignZeros_keysSorted a ha, h, ← unsignZeros_keysSorted b hb,
    render_unsignZeros]

end LaneGate.Json
