import LaneGate.Proofs.Store.Newest
import LaneGate.Proofs.Decimal.Integers
import LaneGate.Script.Store
import LaneGate.Store.Telemetry
/-!
# What the decision table keeps

A decision is written (`Script.saveAndTrim`) in two statements: the row is inserted,
refused with `UNIQUE constraint failed: routing_events.id` when a row with its id is
already there, and then all rows but the newest `max(50, floor(maxRows))` are deleted
(`keepCount`), newest by creation time and rows of one time in the order written. A
bound of `2^63` or more is no row count, so that delete fails after the insert.

Over a run of writes (`History`) the table keeps the newest rows of all the rows the
run stored (`Keeps`): one write keeps that (`keeps_write`), because the rows that
survive a cut are the first `k` newest first (`filter_kept`), sorting commutes with the
cut (`newestFirst_filter`) and the newest `k` of the newest `k` and one more row are
the newest `k` of all of them (`take_insertNewest_take`).

A score is kept in a column of doubles, which reads a whole number as an integer and
back (`asReal_of_isFinite`): the double comes back as it was, but for `-0`, which comes
back as `0`. Main statement: `decision_table_keeps_newest`.
-/

namespace LaneGate.Store

open Decimal

/-! ### The bound -/

/-- Below 50 the bound is 50; from there the floor, while it is below `2^63`. -/
theorem keepCount_eq {m : Float} (hm : isFinite m = true) :
    keepCount m = if ⌊value m⌋ < 2 ^ 63 then .ok (max 50 ⌊value m⌋)
      else .error (.storage "datatype mismatch") := by
  have h50 : Integral (50 : Float) 50 := (Whole.toFloat (n := 50) (by decide)).integral
  have hm' : m.isNaN = false := isNaN_eq_false hm
  -- `m < 50` is the floor's comparison with 50
  have hlt : m < 50 ↔ ⌊value m⌋ < 50 := by
    rw [lt_iff_rank_lt hm' h50.isNaN, h50.rank, floor_value,
      Int.ediv_lt_iff_lt_mul (by positivity)]
    push_cast
    rfl
  unfold keepCount
  by_cases h : m < 50
  · have hf := hlt.1 h
    rw [if_pos h, if_pos (by omega), max_eq_left hf.le]
  · have hf : 50 ≤ ⌊value m⌋ := not_lt.1 (fun h' => h (hlt.2 h'))
    have hrank : 0 ≤ rank m := by
      rw [lt_iff_rank_lt hm' h50.isNaN, h50.rank] at h
      omega
    rw [if_neg h, hm, wholePart_eq_floor hm hrank, max_eq_right hf, Bool.true_and]
    by_cases hb : ⌊value m⌋ < 2 ^ 63
    · rw [if_pos (decide_eq_true (by rw [int64Limit]; omega)), if_pos hb]
    · rw [if_neg (by rw [decide_eq_true_iff, int64Limit]; omega), if_neg hb]

/-! ### One write -/

variable {t : Tables} {r : DecisionRow} {m : Float}

/-- The row to write goes in unless its id is already there. -/
theorem saveDecision_eq (t : Tables) (r : DecisionRow) :
    t.saveDecision r =
      if r.asStored.id.isSome && t.decisions.any (·.id == r.asStored.id) then
        .error (.storage "UNIQUE constraint failed: routing_events.id")
      else .ok { t with decisions := t.decisions ++ [r.asStored] } := rfl

theorem asStored_id_isSome (hid : r.id.isSome) : r.asStored.id.isSome := by
  simpa [DecisionRow.asStored] using hid

theorem any_id_iff : t.decisions.any (·.id == r.asStored.id) = true ↔
    ∃ x ∈ t.decisions, x.id = r.asStored.id := by
  simp

/-- The cut deletes the rows whose ids are among those of the rows past the newest
`k`. -/
theorem trimDecisions_of_keep {K : Int} (hK : keepCount m = .ok K) (t : Tables) :
    t.trimDecisions m = .ok { t with decisions := t.decisions.filter fun x =>
      !(x.id.any ((newestFirst (·.createdAt) t.decisions).drop K.toNat |>.filterMap (·.id)).contains) } := by
  simp only [Tables.trimDecisions, hK]
  rfl

/-- A write whose id is already in the table is refused and changes nothing. -/
theorem saveAndTrim_of_duplicate (hid : r.id.isSome) (hdup : ∃ x ∈ t.decisions, x.id = r.asStored.id) :
    Script.saveAndTrim t r m = (t, some (.storage "UNIQUE constraint failed: routing_events.id")) := by
  rw [Script.saveAndTrim, saveDecision_eq, if_pos (by
    rw [asStored_id_isSome hid, Bool.true_and]; exact any_id_iff.2 hdup)]

/-- With a row count for a bound, a write with a new id goes through. -/
theorem saveAndTrim_of_fresh {K : Int} (hK : keepCount m = .ok K) (hid : r.id.isSome)
    (hnew : ¬∃ x ∈ t.decisions, x.id = r.asStored.id) :
    (Script.saveAndTrim t r m).2 = none := by
  rw [Script.saveAndTrim, saveDecision_eq, if_neg (by
    rw [asStored_id_isSome hid, Bool.true_and]; exact fun h => hnew (any_id_iff.1 h))]
  simp only [trimDecisions_of_keep hK]

/-- Without a row count for a bound, no write goes through: it is refused, or its cut
fails after the row went in. -/
theorem saveAndTrim_of_mismatch {f : Fault} (hK : keepCount m = .error f) (t : Tables) (r : DecisionRow) :
    (Script.saveAndTrim t r m).2.isSome := by
  rw [Script.saveAndTrim]
  split
  · rfl
  · rename_i t' _
    simp only [Tables.trimDecisions, hK]
    rfl

/-! ### The rows a cut keeps -/

section Cut

variable {α β : Type} [BEq β] [LawfulBEq β]

/-- Rows with distinct keys, cut by the keys of the rows past the first ones: the first
ones are kept and the rest deleted. -/
theorem filter_kept (key : α → Option β) (A B : List α) (hid : ∀ x ∈ A ++ B, (key x).isSome)
    (hnd : ((A ++ B).map key).Nodup) :
    (A ++ B).filter (fun x => !((key x).any (B.filterMap key).contains)) = A := by
  rw [List.map_append, List.nodup_append] at hnd
  obtain ⟨-, -, hdisj⟩ := hnd
  have hA : A.filter (fun x => !((key x).any (B.filterMap key).contains)) = A := by
    refine List.filter_eq_self.2 fun a ha => ?_
    obtain ⟨i, hi⟩ := Option.isSome_iff_exists.1 (hid a (List.mem_append_left B ha))
    simp only [hi, Option.any_some, Bool.not_eq_eq_eq_not, Bool.not_true]
    rw [Bool.eq_false_iff, ne_eq, List.contains_iff_mem]
    intro hmem
    obtain ⟨b, hb, hbi⟩ := List.mem_filterMap.1 hmem
    exact hdisj _ (List.mem_map_of_mem ha) _ (List.mem_map_of_mem hb) (hi.trans hbi.symm)
  have hB : B.filter (fun x => !((key x).any (B.filterMap key).contains)) = [] := by
    refine List.filter_eq_nil_iff.2 fun b hb => ?_
    obtain ⟨i, hi⟩ := Option.isSome_iff_exists.1 (hid b (List.mem_append_right A hb))
    simp only [hi, Option.any_some, Bool.not_eq_eq_eq_not, Bool.not_true, Bool.not_eq_false,
      List.contains_iff_mem]
    exact List.mem_filterMap.2 ⟨b, hb, hi⟩
  rw [List.filter_append, hA, hB, List.append_nil]

end Cut

/-! ### The table along a run -/

/-- What the decision table holds after writes that stored `rows`, cut to `k` rows:
rows they stored, in the order written, each with an id and no two with one id, and
newest first the newest `k` of all the rows stored (rows of one time in the order
written). -/
structure Keeps (k : Nat) (rows table : List DecisionRow) : Prop where
  sublist : table.Sublist rows
  ids : ∀ x ∈ table, x.id.isSome
  distinct : (table.map (·.id)).Nodup
  newest : newestFirst (·.createdAt) table = (newestFirst (·.createdAt) rows).take k

theorem Keeps.nil (k : Nat) : Keeps k [] [] :=
  ⟨List.Sublist.slnil, fun _ h => by simp at h, List.nodup_nil, by rw [newestFirst_nil, List.take_nil]⟩

/-- The table's rows are as many as the rows stored, up to the bound. -/
theorem Keeps.length {k : Nat} {rows table : List DecisionRow} (h : Keeps k rows table) :
    table.length = min rows.length k := by
  rw [← length_newestFirst (·.createdAt) table, h.newest, List.length_take, length_newestFirst,
    Nat.min_comm]

/-- Every row stored and no longer in the table is no newer than any row in it. -/
theorem Keeps.newer {k : Nat} {rows table : List DecisionRow} (h : Keeps k rows table) :
    ∀ a ∈ table, ∀ b ∈ rows, b ∉ table → b.createdAt ≤ a.createdAt := by
  intro a ha b hb hnb
  have hmem (x : DecisionRow) : x ∈ table ↔ x ∈ (newestFirst (·.createdAt) rows).take k := by
    rw [← h.newest]
    exact (newestFirst_perm _ table).mem_iff.symm
  have hb' : b ∈ (newestFirst (·.createdAt) rows).drop k := by
    have hall := (newestFirst_perm (·.createdAt) rows).mem_iff.2 hb
    rw [← List.take_append_drop k (newestFirst (·.createdAt) rows), List.mem_append] at hall
    exact hall.resolve_left fun h' => hnb ((hmem b).2 h')
  exact le_of_mem_take_of_mem_drop _ (pairwise_newestFirst _ rows) ((hmem a).1 ha) hb'

/-- One write keeps the table holding the newest rows stored: a refused write changes
nothing, and a stored row joins the rows and is cut with them. -/
theorem keeps_write {k : Nat} {K : Int} {rows : List DecisionRow} (h : Keeps k rows t.decisions)
    (hid : r.id.isSome) (hK : keepCount m = .ok K) (hk : K.toNat = k) :
    Keeps k (if (t.saveDecision r).isOk then rows ++ [r.asStored] else rows)
      (Script.saveAndTrim t r m).1.decisions := by
  by_cases hdup : ∃ x ∈ t.decisions, x.id = r.asStored.id
  · have hs : t.saveDecision r = .error (.storage "UNIQUE constraint failed: routing_events.id") := by
      rw [saveDecision_eq, if_pos (by rw [asStored_id_isSome hid, Bool.true_and]; exact any_id_iff.2 hdup)]
    rw [saveAndTrim_of_duplicate hid hdup, hs]
    exact h
  have hs : t.saveDecision r = .ok { t with decisions := t.decisions ++ [r.asStored] } := by
    rw [saveDecision_eq, if_neg (by
      rw [asStored_id_isSome hid, Bool.true_and]; exact fun h' => hdup (any_id_iff.1 h'))]
  simp only [Script.saveAndTrim, hs, trimDecisions_of_keep hK, hk, Except.isOk, Except.toBool,
    if_true]
  generalize hS : t.decisions ++ [r.asStored] = S
  have hSids : ∀ x ∈ S, x.id.isSome := by
    intro x hx
    rw [← hS, List.mem_append, List.mem_singleton] at hx
    rcases hx with hx | rfl
    · exact h.ids x hx
    · exact asStored_id_isSome hid
  have hSnd : (S.map (·.id)).Nodup := by
    rw [← hS, List.map_append, List.nodup_append]
    refine ⟨h.distinct, List.nodup_singleton _, ?_⟩
    intro a ha b hb hab
    rw [List.mem_singleton.1 hb] at hab
    obtain ⟨x, hx, rfl⟩ := List.mem_map.1 ha
    exact hdup ⟨x, hx, hab⟩
  have hcut : (newestFirst (·.createdAt) S).filter (fun x =>
      !(x.id.any ((newestFirst (·.createdAt) S).drop k |>.filterMap (·.id)).contains)) =
      (newestFirst (·.createdAt) S).take k := by
    have hperm := newestFirst_perm (·.createdAt) S
    have := filter_kept (·.id) ((newestFirst (·.createdAt) S).take k) ((newestFirst (·.createdAt) S).drop k)
      (by rw [List.take_append_drop]; exact fun x hx => hSids x (hperm.mem_iff.1 hx))
      (by rw [List.take_append_drop]; exact (hperm.map _).nodup_iff.2 hSnd)
    rwa [List.take_append_drop] at this
  refine ⟨?_, ?_, ?_, ?_⟩
  · rw [← hS]
    exact List.filter_sublist.trans (h.sublist.append (List.Sublist.refl _))
  · exact fun x hx => hSids x (List.mem_of_mem_filter hx)
  · exact hSnd.sublist (List.filter_sublist.map _)
  · rw [newestFirst_filter, hcut, ← hS, newestFirst_append_singleton, h.newest,
      take_insertNewest_take, ← newestFirst_append_singleton]

/-- Runs of decision writes under one bound `m`, from tables without decisions: the
tables after each write, and the rows the writes stored, oldest first. Every row comes
with an id, as every decision the service writes does; a write the table refuses
stores nothing. -/
inductive History (m : Float) : Tables → List DecisionRow → Prop
  | start {t : Tables} : t.decisions = [] → History m t []
  | write {t : Tables} {rows : List DecisionRow} (r : DecisionRow) : r.id.isSome → History m t rows →
      History m (Script.saveAndTrim t r m).1 (if (t.saveDecision r).isOk then rows ++ [r.asStored] else rows)

/-- With a row count for the bound, the table keeps the newest rows stored after every
write of a run. -/
theorem History.keeps {K : Int} (hK : keepCount m = .ok K) {rows : List DecisionRow}
    (h : History m t rows) : Keeps K.toNat rows t.decisions := by
  induction h with
  | start h0 => rw [h0]; exact Keeps.nil _
  | write r hid _ ih => exact keeps_write ih hid hK rfl

/-! ### Scores -/

/-- A column of doubles gives a finite double back, but for `-0`, which it gives back
as `0`: a whole number goes in as an integer and comes out as its double. -/
theorem asReal_of_isFinite {x : Float} (hx : isFinite x = true) :
    ∃ y, (Cell.real x).asReal = .real y ∧ (y = x ∨ x = -0 ∧ y = 0) := by
  cases hw : wholeOf? x with
  | none =>
    refine ⟨x, ?_, .inl rfl⟩
    simp only [Cell.asReal, Cell.numeric, Cell.ofDouble, hw]
  | some n =>
    refine ⟨Float.ofInt n, by simp only [Cell.asReal, Cell.numeric, Cell.ofDouble, hw], ?_⟩
    unfold wholeOf? at hw
    split at hw
    · rename_i hcond
      simp only [Bool.and_eq_true] at hcond
      obtain ⟨⟨-, hwhole⟩, -⟩ := hcond
      cases hw
      have hI := integral_wholePart hx hwhole
      by_cases h0 : wholePart x = 0
      · rw [h0] at hI ⊢
        rcases hI.eq_zero_or_eq_neg_zero with rfl | rfl
        · exact .inl rfl
        · exact .inr ⟨rfl, rfl⟩
      · exact .inl (hI.ofInt.eq hI h0)
    · cases hw

/-- The score a routing decision is stored with: none when it is not finite, and
otherwise the double itself (`-0` as `0`). -/
theorem decisionRowOf_score (id : String) (d : Decision) :
    (isFinite d.score = false → (decisionRowOf id d).asStored.score = .null) ∧
      (isFinite d.score = true → ∃ y, (decisionRowOf id d).asStored.score = .real y ∧
        (y = d.score ∨ d.score = -0 ∧ y = 0)) := by
  have hfin := isFinite_eq d.score
  constructor
  · intro hf
    have hbad : (d.score.isNaN || d.score.isInf) = true := by
      cases hb : (d.score.isNaN || d.score.isInf)
      · rw [hf, hb] at hfin; cases hfin
      · rfl
    simp only [DecisionRow.asStored, decisionRowOf, hbad, if_true]
    rfl
  · intro hf
    have hgood : (d.score.isNaN || d.score.isInf) = false := by
      cases hb : (d.score.isNaN || d.score.isInf)
      · rfl
      · rw [hf, hb] at hfin; cases hfin
    simp only [DecisionRow.asStored, decisionRowOf, hgood, Bool.false_eq_true, if_false]
    exact asReal_of_isFinite hf

/-! ### The table of decisions -/

/-- Decisions written one after another under a finite bound `m`:

* a bound whose floor is `2^63` or more is no row count, and no write goes through;
* under any other bound, after every write of every run, the table holds as many rows
  as the run stored, up to `max(50, floor(m))`, and they are the newest of them: every
  row stored and no longer there is no newer than any row still there, and newest
  first the table is the first `max(50, floor(m))` of all rows stored newest first
  (rows of one time in the order written); a write with a new id goes through;
* a write whose id is already in the table is refused and changes nothing;
* a decision's score is stored as none when it is not finite, and otherwise as the
  same double (`-0` as `0`). -/
theorem decision_table_keeps_newest (m : Float) (hm : isFinite m = true) :
    (2 ^ 63 ≤ ⌊value m⌋ → ∀ (t : Tables) (r : DecisionRow), (Script.saveAndTrim t r m).2.isSome) ∧
    (⌊value m⌋ < 2 ^ 63 →
      (∀ (t : Tables) (rows : List DecisionRow), History m t rows →
        t.decisions.Sublist rows ∧
        (t.decisions.length : Int) = min (rows.length : Int) (max 50 ⌊value m⌋) ∧
        (∀ a ∈ t.decisions, ∀ b ∈ rows, b ∉ t.decisions → b.createdAt ≤ a.createdAt) ∧
        newestFirst (·.createdAt) t.decisions =
          (newestFirst (·.createdAt) rows).take (max 50 ⌊value m⌋).toNat) ∧
      ∀ (t : Tables) (r : DecisionRow), r.id.isSome → (¬∃ x ∈ t.decisions, x.id = r.asStored.id) →
        (Script.saveAndTrim t r m).2 = none) ∧
    (∀ (t : Tables) (r : DecisionRow), r.id.isSome → (∃ x ∈ t.decisions, x.id = r.asStored.id) →
      Script.saveAndTrim t r m = (t, some (.storage "UNIQUE constraint failed: routing_events.id"))) ∧
    (∀ (id : String) (d : Decision),
      (isFinite d.score = false → (decisionRowOf id d).asStored.score = .null) ∧
      (isFinite d.score = true → ∃ y, (decisionRowOf id d).asStored.score = .real y ∧
        (y = d.score ∨ d.score = -0 ∧ y = 0))) := by
  have hK := keepCount_eq hm
  refine ⟨fun hbig t r => ?_, fun hsmall => ?_, fun t r hid hdup => saveAndTrim_of_duplicate hid hdup,
    decisionRowOf_score⟩
  · rw [if_neg (not_lt.2 hbig)] at hK
    exact saveAndTrim_of_mismatch hK t r
  · rw [if_pos hsmall] at hK
    refine ⟨fun t rows h => ?_, fun t r hid hnew => saveAndTrim_of_fresh hK hid hnew⟩
    have hk := h.keeps hK
    have hlen := hk.length
    refine ⟨hk.sublist, ?_, hk.newer, hk.newest⟩
    rw [hlen]
    have : (0 : Int) ≤ max 50 ⌊value m⌋ := le_trans (by decide) (le_max_left _ _)
    omega

/-- Under the bound 50.5, nothing is too many and everything stated holds. -/
theorem decision_table_keeps_newest_at_fifty :
    isFinite 50.5 = true ∧
      ((2 ^ 63 ≤ ⌊value 50.5⌋ → ∀ (t : Tables) (r : DecisionRow), (Script.saveAndTrim t r 50.5).2.isSome) ∧
      (⌊value 50.5⌋ < 2 ^ 63 →
        (∀ (t : Tables) (rows : List DecisionRow), History 50.5 t rows →
          t.decisions.Sublist rows ∧
          (t.decisions.length : Int) = min (rows.length : Int) (max 50 ⌊value 50.5⌋) ∧
          (∀ a ∈ t.decisions, ∀ b ∈ rows, b ∉ t.decisions → b.createdAt ≤ a.createdAt) ∧
          newestFirst (·.createdAt) t.decisions =
            (newestFirst (·.createdAt) rows).take (max 50 ⌊value 50.5⌋).toNat) ∧
        ∀ (t : Tables) (r : DecisionRow), r.id.isSome → (¬∃ x ∈ t.decisions, x.id = r.asStored.id) →
          (Script.saveAndTrim t r 50.5).2 = none) ∧
      (∀ (t : Tables) (r : DecisionRow), r.id.isSome → (∃ x ∈ t.decisions, x.id = r.asStored.id) →
        Script.saveAndTrim t r 50.5 = (t, some (.storage "UNIQUE constraint failed: routing_events.id"))) ∧
      (∀ (id : String) (d : Decision),
        (isFinite d.score = false → (decisionRowOf id d).asStored.score = .null) ∧
        (isFinite d.score = true → ∃ y, (decisionRowOf id d).asStored.score = .real y ∧
          (y = d.score ∨ d.score = -0 ∧ y = 0)))) :=
  ⟨by decide, decision_table_keeps_newest 50.5 (by decide)⟩

end LaneGate.Store
