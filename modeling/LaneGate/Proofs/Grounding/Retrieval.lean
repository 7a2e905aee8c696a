import LaneGate.Proofs.Decimal.Logarithm
import LaneGate.Proofs.Decimal.Floor
import LaneGate.Proofs.Sorting.Stable
import LaneGate.Grounding.Runbooks
/-!
# Ranking passages for a question

Relevance weighs a snippet against a query by a sum over the query keywords it holds: the
keyword's count over the square root of the snippet's length, times the logarithm of the
smoothed inverse frequency `(N + 1) / (df + 0.5)`. Ranking keeps the snippets whose sum is
above zero and sorts them best first.

The sum is above zero exactly when the snippet holds a query keyword. Every weight is a
positive double of at most `712` (`inverseFrequency_within`): `df ≤ N` puts the computed
ratio above one, where the computed logarithm is positive. Every term then lies between
`2^-79` and `2^29` (`term_within`), and the sum in query order stays positive once a term
is added and below `2^30` a keyword (`score_within`). So the ranking is the stable sort,
best first, of exactly the snippets that hold a keyword, each with the sum of the terms of
the keywords it holds (`rank_eq_ranking`, `ranking_sorted`).

Retrieval ranks the newest passages. The store reads the scan limit as a row count of at
least one (`recentChunks_eq`), so a scan limit below one still scans the newest passage
(`retrieve_eq`).
-/

namespace LaneGate.Relevance

open Decimal

variable {α : Type}

theorem within_zero : Within (0 : Float) 0 0 := by
  have h : value (0 : Float) = 0 := by
    rw [value, show Decimal.rank (0 : Float) = 0 by decide]
    simp
  exact ⟨by decide, h.ge, h.le⟩

/-- A keyword is in at most all the snippets. -/
theorem docFrequency_le (docs : List (Doc α)) (w : String) : docFrequency docs w ≤ docs.length :=
  List.length_filter_le _ _

/-- Over fewer than `2^32` snippets the weight of every keyword is positive and at most
`712`: the smoothed ratio `(N + 1) / (df + 0.5)` is above one, since `df ≤ N`, and so is its
computed value, whose logarithm is then positive. -/
theorem inverseFrequency_within (docs : List (Doc α)) (hN : docs.length < 2 ^ 32) (w : String) :
    Within (inverseFrequency docs w) (1 / 2 ^ 60) 712 := by
  obtain ⟨N, hNdef⟩ : ∃ N, N = max docs.length 1 := ⟨_, rfl⟩
  obtain ⟨df, hdfdef⟩ : ∃ df, df = docFrequency docs w := ⟨_, rfl⟩
  have hN1 : 1 ≤ N := hNdef ▸ le_max_right _ _
  have hN2 : N < 2 ^ 32 := hNdef ▸ max_lt hN (by norm_num)
  have hdf : df ≤ N := hNdef ▸ hdfdef ▸ (docFrequency_le docs w).trans (le_max_left _ _)
  have hnum := within_toFloat (n := N + 1) (by omega)
  have hdfw := within_toFloat (n := df) (by omega)
  have hvnum : value (N + 1).toFloat = ((N + 1 : Nat) : ℚ) := le_antisymm hnum.le_hi hnum.lo_le
  have hvdf : value df.toFloat = (df : ℚ) := le_antisymm hdfw.le_hi hdfw.lo_le
  have hvhalf : value 0.5 = 1 / 2 := le_antisymm within_half.le_hi within_half.lo_le
  have hNq : (N : ℚ) < 2 ^ 32 := by exact_mod_cast hN2
  have hdfq : (df : ℚ) ≤ N := by exact_mod_cast hdf
  have hdf0 : (0 : ℚ) ≤ df := Nat.cast_nonneg _
  have ht := tinyError_le_of (a := 1) (by norm_num)
  have hden := Rounded.add hdfw.finite within_half.finite
    (le_limit (by rw [hvdf, hvhalf, abs_of_nonneg (by linarith)]; linarith))
  have hdn := abs_le.1 hden.near
  rw [hvdf, hvhalf, abs_of_nonneg (by linarith)] at hdn
  set D := value (df.toFloat + 0.5)
  have hD0 : 49 / 100 ≤ D := by linarith [hdn.1]
  have hD1 : D ≤ (N + 1 / 2) * (1 + 1 / 2 ^ 50) + tinyError := by linarith [hdn.2]
  -- the ratio is one rounding of `(N + 1) / D`, which is above one by more than the rounding
  have hW : 1 + 1 / 2 ^ 36 ≤ ((N + 1 : Nat) : ℚ) / D := by
    rw [le_div_iff₀ (by linarith)]
    push_cast
    nlinarith
  have hW' : ((N + 1 : Nat) : ℚ) / D ≤ 2 ^ 64 := by
    rw [div_le_iff₀ (by linarith)]
    push_cast
    nlinarith
  have hq := Rounded.div hnum.finite hden.finite (by linarith)
    (le_limit (by rw [hvnum, abs_of_nonneg (by positivity)]; exact hW'))
  have hqn := abs_le.1 hq.near
  rw [hvnum, abs_of_nonneg (by positivity)] at hqn
  have h1 : 1 < value ((N + 1).toFloat / (df.toFloat + 0.5)) := by
    linarith [hqn.1]
  subst hNdef hdfdef
  exact naturalLog_within hq.finite h1

/-- What a keyword adds to a snippet's relevance: `tf / √length · weight`. -/
def term (docs : List (Doc α)) (d : Doc α) (w : String) : Float :=
  (countOf w d.words).toFloat / (d.length.toFloat).sqrt * inverseFrequency docs w

/-- The term of a keyword that a snippet of fewer than `2^32` keywords holds lies from
`2^-79` to `2^29`: the count over the root of the length is from `2^-18` to `2^18`, since
the count is at most the length. -/
theorem term_within (docs : List (Doc α)) (hN : docs.length < 2 ^ 32) (d : Doc α)
    (hL : d.words.length < 2 ^ 32) {w : String} (htf : 0 < countOf w d.words) :
    Within (term docs d w) (1 / 2 ^ 79) (2 ^ 29) := by
  obtain ⟨L, hLdef⟩ : ∃ L, L = d.length := ⟨_, rfl⟩
  obtain ⟨tf, htfdef⟩ : ∃ tf, tf = countOf w d.words := ⟨_, rfl⟩
  have hL1 : 1 ≤ L := hLdef ▸ le_max_right _ _
  have hL2 : L < 2 ^ 32 := hLdef ▸ max_lt hL (by norm_num)
  have htfL : tf ≤ L := htfdef ▸ hLdef ▸ List.count_le_length.trans (le_max_left _ _)
  have htf1 : 1 ≤ tf := htfdef ▸ htf
  have hLw := within_toFloat (n := L) (by omega)
  have hvL : value L.toFloat = L := le_antisymm hLw.le_hi hLw.lo_le
  have hLq1 : (1 : ℚ) ≤ L := by exact_mod_cast hL1
  have hLq2 : (L : ℚ) < 2 ^ 32 := by exact_mod_cast hL2
  have htfq : (tf : ℚ) ≤ L := by exact_mod_cast htfL
  have htfq1 : (1 : ℚ) ≤ tf := by exact_mod_cast htf1
  have ht := tinyError_le_of (a := 1 / 2 ^ 64) le_rfl
  have ht0 := tinyError_pos
  obtain ⟨ρ, hρ0, hρ2, hρ3, hr⟩ := Rounded.sqrt hLw.finite (by rw [hvL]; positivity)
    (le_limit (by rw [hvL]; linarith))
  rw [hvL] at hρ2 hρ3
  have hu : 1 < ρ + ρ / 2 ^ 51 + tinyError := by nlinarith
  have hρ1 : 99 / 100 ≤ ρ := by linarith
  have hρ16 : ρ ≤ 2 ^ 16 := by nlinarith
  have hLρ : (L : ℚ) ≤ (101 / 100 * ρ) ^ 2 :=
    hρ3.le.trans (pow_le_pow_left₀ (by positivity) (by linarith) 2)
  have hrn := abs_le.1 hr.near
  rw [abs_of_nonneg hρ0] at hrn
  have hS : Within L.toFloat.sqrt (98 / 100 * ρ) (101 / 100 * ρ) :=
    ⟨hr.finite, by linarith [hrn.1], by linarith [hrn.2]⟩
  have htfw := within_toFloat (n := tf) (by omega)
  have hbc : (tf : ℚ) / (98 / 100 * ρ) ≤ 2 ^ 17 := by
    rw [div_le_iff₀ (by positivity)]
    nlinarith
  have hlo : 1 / 2 ^ 17 ≤ (tf : ℚ) / (101 / 100 * ρ) := by
    rw [le_div_iff₀ (by positivity)]
    nlinarith
  have hs := slack_le (M := 2 ^ 17) (a := 2 ^ 17) (by norm_num) le_rfl
  have hdiv := (htfw.div_of_nonneg hS (by positivity) (by positivity) hbc (by norm_num)).weaken
    (p := 1 / 2 ^ 18) (q := 2 ^ 18) (by linarith) (by linarith)
  have hp := hdiv.mul_of_pos (inverseFrequency_within docs hN w) (by positivity) (by positivity)
    (by linarith) (by norm_num)
  subst hLdef htfdef
  exact hp.weaken (by norm_num) (by norm_num)

/-- One keyword of the query added to the running relevance: its term, when the snippet
holds the keyword. -/
def addTerm (docs : List (Doc α)) (d : Doc α) (acc : Float) (w : String) : Float :=
  if countOf w d.words > 0 then acc + term docs d w else acc

theorem score_eq (docs : List (Doc α)) (query : List String) (d : Doc α) :
    score docs query d = query.foldl (addTerm docs d) 0 := rfl

/-- A keyword the snippet lacks adds nothing, so the relevance is the sum, in query order,
of the terms of the keywords it holds (repeats counted). -/
theorem foldl_addTerm (docs : List (Doc α)) (d : Doc α) (ws : List String) (acc : Float) :
    ws.foldl (addTerm docs d) acc = (ws.filter d.words.contains).foldl (fun a w => a + term docs d w) acc := by
  induction ws generalizing acc with
  | nil => rfl
  | cons w ws ih =>
    by_cases hw : w ∈ d.words
    · have hc : countOf w d.words > 0 := List.count_pos_iff.2 hw
      rw [List.foldl_cons, List.filter_cons_of_pos (by simpa using hw), List.foldl_cons, ih,
        addTerm, if_pos hc]
    · have hc : ¬ countOf w d.words > 0 := fun h => hw (List.count_pos_iff.1 h)
      rw [List.foldl_cons, List.filter_cons_of_neg (by simpa using hw), ih, addTerm, if_neg hc]

section Bounds

variable (docs : List (Doc α)) (hN : docs.length < 2 ^ 32) (d : Doc α) (hL : d.words.length < 2 ^ 32)
include hN hL

/-- One keyword keeps the running relevance from 0 to `2^30` for each keyword so far, and
leaves it positive exactly when it was positive or the snippet holds the keyword. -/
theorem addTerm_within {acc : Float} {i : Nat} (hacc : Within acc 0 (i * 2 ^ 30)) (hi : i < 2 ^ 32)
    (w : String) :
    Within (addTerm docs d acc w) 0 ((i + 1) * 2 ^ 30) ∧
      (0 < value (addTerm docs d acc w) ↔ 0 < value acc ∨ w ∈ d.words) := by
  have hiq : (i : ℚ) + 1 ≤ 2 ^ 32 := by exact_mod_cast Nat.succ_le_of_lt hi
  have hi0 : (0 : ℚ) ≤ i := Nat.cast_nonneg _
  unfold addTerm
  by_cases htf : countOf w d.words > 0
  · rw [if_pos htf]
    have ht := tinyError_le_of (a := 1 / 2 ^ 64) le_rfl
    obtain ⟨M, hM⟩ : ∃ M : ℚ, M = (i + 1) * 2 ^ 30 := ⟨_, rfl⟩
    have hs := slack_le (M := M) (a := 2 ^ 62) (by norm_num) (by nlinarith)
    have h := hacc.add_of_pos (term_within docs hN d hL htf) le_rfl (by linarith) (M := M)
      (by rw [hM]; linarith) (by rw [hM]; nlinarith)
    refine ⟨h.weaken (by norm_num) (by linarith), ?_⟩
    have hpos : 0 < value (acc + term docs d w) := lt_of_lt_of_le (by norm_num) h.lo_le
    exact iff_of_true hpos (.inr (List.count_pos_iff.1 htf))
  · rw [if_neg htf]
    refine ⟨hacc.weaken le_rfl (by linarith), ?_⟩
    have hw : w ∉ d.words := fun h => htf (List.count_pos_iff.2 h)
    simp only [hw, or_false]

/-- The running relevance over keywords `ws`, from one below `2^30` per keyword: positive
exactly when it was positive or the snippet holds one of the keywords. -/
theorem foldl_addTerm_within : ∀ (ws : List String) {acc : Float} {i : Nat},
    Within acc 0 (i * 2 ^ 30) → i + ws.length ≤ 2 ^ 32 →
    Within (ws.foldl (addTerm docs d) acc) 0 ((i + ws.length) * 2 ^ 30) ∧
      (0 < value (ws.foldl (addTerm docs d) acc) ↔ 0 < value acc ∨ ∃ w ∈ ws, w ∈ d.words)
  | [], acc, i, hacc, _ => by simpa using hacc
  | w :: ws, acc, i, hacc, hlen => by
    rw [List.length_cons] at hlen
    have hi : i < 2 ^ 32 := by omega
    obtain ⟨h1, h2⟩ := addTerm_within docs hN d hL hacc hi w
    obtain ⟨h3, h4⟩ := foldl_addTerm_within ws (i := i + 1)
      (by rw [Nat.cast_add, Nat.cast_one]; exact h1) (by omega)
    have e : ((i + 1 : Nat) : ℚ) + ws.length = i + (ws.length + 1 : Nat) := by
      push_cast
      ring
    rw [e] at h3
    rw [List.foldl_cons, h4, h2, List.length_cons]
    refine ⟨h3, ?_⟩
    simp only [List.mem_cons, exists_eq_or_imp, or_assoc]

/-- The relevance of a snippet to a query of fewer than `2^32` keywords is a finite double
from 0 to `2^30` per keyword, positive exactly when the snippet holds a query keyword. -/
theorem score_within {query : List String} (hQ : query.length < 2 ^ 32) :
    Within (score docs query d) 0 (query.length * 2 ^ 30) ∧
      (0 < value (score docs query d) ↔ ∃ w ∈ query, w ∈ d.words) := by
  have h := foldl_addTerm_within docs hN d hL query (i := 0) (by simpa using within_zero) (by omega)
  rw [← score_eq, Nat.cast_zero, zero_add,
    le_antisymm within_zero.le_hi within_zero.lo_le, lt_self_iff_false, false_or] at h
  exact h

end Bounds

/-! ### The ranking -/

/-- A snippet read into keywords, as the ranking reads it. -/
def Doc.ofSnippet : α × String → Doc α
  | (id, content) => ⟨id, keywords content⟩

/-- Whether a snippet holds one of the query keywords. -/
def Doc.mentions (query : List String) (d : Doc α) : Bool := query.any d.words.contains

/-- The sum, in query order, of the terms of the query keywords a snippet holds. -/
def sumOfTerms (docs : List (Doc α)) (query : List String) (d : Doc α) : Float :=
  (query.filter d.words.contains).foldl (fun a w => a + term docs d w) 0

/-- The ranking the relevance order asks for: the snippets that hold a query keyword, each
with its relevance, best first and equal ones in their given order; nothing for an empty
query. -/
def ranking (query : List String) (snippets : List (α × String)) : List (α × Float) :=
  if query = [] then []
  else
    let docs := snippets.map Doc.ofSnippet
    ((docs.filter (Doc.mentions query)).map fun d => (d.id, sumOfTerms docs query d)).mergeSort
      (Sorting.keyLE fun e => -Decimal.rank e.2)

theorem zero_lt_iff_value_pos {x : Float} (hx : x.isNaN = false) : (0 : Float) < x ↔ 0 < value x := by
  rw [lt_iff_rank_lt (by decide) hx, show Decimal.rank (0 : Float) = 0 by decide,
    value, div_pos_iff_of_pos_right (by positivity), Int.cast_pos]

/-- Subtracting the first score from the second sorts best first: by the order of the
doubles reversed, on entries whose score is a number. -/
theorem follows_sub_desc {β : Type} :
    Sorting.Follows (fun a b : β × Float => b.2 - a.2) (fun e => -Decimal.rank e.2)
      (fun e => e.2.isNaN = false) := by
  intro u v hu hv
  exact decide_eq_decide.2 ((sub_lt_zero_iff hv hu).trans
    ((lt_iff_rank_lt hv hu).trans neg_lt_neg_iff.symm))

section Ranking

variable {docs : List (Doc α)} {query : List String} (hN : docs.length < 2 ^ 32)
  (hQ : query.length < 2 ^ 32) (hL : ∀ d ∈ docs, d.words.length < 2 ^ 32)
include hN hQ hL

/-- The snippets that score are those that hold a query keyword. -/
theorem filter_scored :
    (docs.map fun d => (d.id, score docs query d)).filter (·.2 > 0) =
      (docs.filter (Doc.mentions query)).map fun d => (d.id, score docs query d) := by
  rw [List.filter_map]
  congr 1
  refine List.filter_congr fun d hd => ?_
  obtain ⟨hw, hpos⟩ := score_within docs hN d (hL d hd) hQ
  have h := (zero_lt_iff_value_pos (isNaN_eq_false hw.finite)).trans hpos
  simp only [Function.comp_apply, gt_iff_lt, Doc.mentions]
  rw [Bool.eq_iff_iff, decide_eq_true_iff, h, List.any_eq_true]
  simp

/-- The scored snippets, each kept once with its relevance, sorted best first. -/
theorem sort_scored :
    Sorting.sort (fun a b => b.2 - a.2)
        ((docs.filter (Doc.mentions query)).map fun d => (d.id, score docs query d)) =
      ((docs.filter (Doc.mentions query)).map fun d => (d.id, score docs query d)).mergeSort
        (Sorting.keyLE fun e => -Decimal.rank e.2) := by
  refine Sorting.sort_eq_mergeSort _ _ follows_sub_desc _ ?_
  intro e he
  obtain ⟨d, hd, rfl⟩ := List.mem_map.1 he
  exact isNaN_eq_false (score_within docs hN d (hL d (List.mem_of_mem_filter hd)) hQ).1.finite

end Ranking

/-- Ranking snippets — fewer than `2^32` of them, each of fewer than `2^32` keywords — for
a query of fewer than `2^32` keywords gives exactly the snippets that hold a query keyword,
each once and with the sum in query order of the terms of the keywords it holds, best
first and equal ones in their given order; an empty query gives nothing. -/
theorem rank_eq_ranking (query : List String) (snippets : List (α × String))
    (hN : snippets.length < 2 ^ 32) (hQ : query.length < 2 ^ 32)
    (hL : ∀ s ∈ snippets, (keywords s.2).length < 2 ^ 32) :
    rank query snippets = ranking query snippets := by
  unfold rank ranking
  by_cases hq : query = []
  · simp [hq]
  · rw [if_neg (by simpa using hq), if_neg hq]
    have hdocs : (snippets.map fun (id, content) => (⟨id, keywords content⟩ : Doc α)) =
        snippets.map Doc.ofSnippet := rfl
    have hN' : (snippets.map Doc.ofSnippet).length < 2 ^ 32 := by simpa using hN
    have hL' : ∀ d ∈ snippets.map Doc.ofSnippet, d.words.length < 2 ^ 32 := by
      intro d hd
      obtain ⟨s, hs, rfl⟩ := List.mem_map.1 hd
      exact hL s hs
    dsimp only
    rw [hdocs, filter_scored hN' hQ hL', sort_scored hN' hQ hL']
    simp only [score_eq, foldl_addTerm, sumOfTerms]

/-- The ranking is best first: no entry scores above one before it. -/
theorem ranking_sorted (query : List String) (snippets : List (α × String)) :
    (ranking query snippets).Pairwise fun a b => value b.2 ≤ value a.2 := by
  unfold ranking
  split
  · exact List.Pairwise.nil
  · refine (Sorting.keySorted_mergeSort _ _).imp fun {a b} h => ?_
    have hr : Decimal.rank b.2 ≤ Decimal.rank a.2 := neg_le_neg_iff.1 h
    rw [value, value]
    exact div_le_div_of_nonneg_right (by exact_mod_cast hr) (by positivity)

/-- The ranking keeps one entry for each snippet that holds a query keyword. -/
theorem length_ranking (query : List String) (snippets : List (α × String)) (hq : query ≠ []) :
    (ranking query snippets).length =
      (snippets.filter fun s => query.any (keywords s.2).contains).length := by
  unfold ranking
  rw [if_neg hq, List.length_mergeSort, List.length_map, List.filter_map, List.length_map]
  rfl

end LaneGate.Relevance

namespace LaneGate.Store

open Decimal

/-- A double holding an integer from 1 on, as a row count: that integer, while it is
below `2^63`; past that the store refuses it. -/
theorem rowCount_ofNumber {y : Float} {z : Int} (hy : Integral y z) (hz : 1 ≤ z) :
    (Cell.ofNumber y).rowCount =
      if z < 2 ^ 63 then .ok z else .error (.storage "datatype mismatch") := by
  have hr := hy.rank
  have h0 : 0 ≤ rank y := by
    rw [hr]
    positivity
  have hdvd : ((2 ^ 1074 : Nat) : Int) ∣
      (((Binary.ofFloat y).mant * 2 ^ ((Binary.ofFloat y).exp + 1074).toNat : Nat) : Int) := by
    rw [← abs_rank_eq hy.finite, hr, Nat.cast_pow, Nat.cast_ofNat]
    exact (dvd_abs _ _).2 (dvd_mul_left _ _)
  have hwhole : isWhole y = true := isWhole_of_dvd (Int.natCast_dvd_natCast.1 hdvd)
  have hpart : wholePart y = z := by
    rw [wholePart_eq_floor hy.finite h0, floor_value, hr, Nat.cast_pow, Nat.cast_ofNat,
      Int.mul_ediv_cancel _ (by positivity)]
  have hcell : Cell.ofNumber y = .real y := by
    unfold Cell.ofNumber
    rw [hy.isNaN, if_neg Bool.false_ne_true]
  have hof : wholeOf? y = if z < 2 ^ 63 then some z else none := by
    unfold wholeOf?
    rw [hy.finite, hwhole, hpart, int64Limit]
    by_cases hlt : z < 2 ^ 63
    · rw [if_pos (by simp; omega), if_pos hlt]
    · rw [if_neg (by simp; omega), if_neg hlt]
  rw [hcell]
  unfold Cell.rowCount Cell.numeric Cell.ofDouble
  dsimp only
  rw [hof]
  by_cases hlt : z < 2 ^ 63
  · rw [if_pos hlt, if_pos hlt]
  · rw [if_neg hlt, if_neg hlt]

/-- The recent passages for a finite limit: the newest `max 1 ⌊limit⌋`, newest first,
while that count is below `2^63`. A limit below one still reads the newest passage. -/
theorem recentChunks_eq (t : Tables) {limit : Float} (hl : isFinite limit = true) :
    t.recentChunks limit =
      if ⌊value limit⌋ < 2 ^ 63 then .ok (t.chunks.reverse.take (max 1 ⌊value limit⌋).toNat)
      else .error (.storage "datatype mismatch") := by
  have hc := rowCount_ofNumber (integral_maxOf_one (integral_floorOf hl)) (le_max_left _ _)
  unfold Tables.recentChunks
  rw [hc]
  by_cases hlt : ⌊value limit⌋ < 2 ^ 63
  · rw [if_pos (max_lt (by norm_num) hlt), if_pos hlt]
    show Except.ok (takeCount _ _) = _
    rw [takeCount, if_neg (by omega)]
  · rw [if_neg (fun h => hlt (lt_of_le_of_lt (le_max_right _ _) h)), if_neg hlt]
    rfl

end LaneGate.Store

namespace LaneGate.Runbooks

open Decimal Relevance Store

/-- Retrieval for a finite scan limit: the first `countOf topK` entries of the ranking of
the newest `max 1 ⌊scanLimit⌋` passages for the keywords of the trimmed question, while
that count is below `2^63`. -/
theorem retrieve_eq (t : Tables) {scanLimit : Float} (hs : isFinite scanLimit = true)
    (question : String) (topK : Float) (hn : t.chunks.length < 2 ^ 32)
    (hw : ∀ c ∈ t.chunks, (keywords c.content).length < 2 ^ 32)
    (hq : (keywords (Text.trim question)).length < 2 ^ 32) :
    retrieve t scanLimit question topK =
      if ⌊value scanLimit⌋ < 2 ^ 63 then
        .ok ((ranking (keywords (Text.trim question))
          ((t.chunks.reverse.take (max 1 ⌊value scanLimit⌋).toNat).map fun c => (c, c.content))).take
            (countOf topK))
      else .error (.storage "datatype mismatch") := by
  unfold retrieve
  rw [recentChunks_eq t hs]
  split
  · -- the scanned passages are some of the stored ones
    have hsub : ∀ c ∈ t.chunks.reverse.take (max 1 ⌊value scanLimit⌋).toNat, c ∈ t.chunks :=
      fun c hc => List.mem_reverse.1 (List.mem_of_mem_take hc)
    have hlen : (t.chunks.reverse.take (max 1 ⌊value scanLimit⌋).toNat).length < 2 ^ 32 :=
      lt_of_le_of_lt ((List.length_take_le' _ _).trans_eq List.length_reverse) hn
    show Except.ok _ = _
    rw [rank_eq_ranking _ _ (by simpa using hlen) hq]
    intro s hs'
    obtain ⟨c, hc, rfl⟩ := List.mem_map.1 hs'
    exact hw c (hsub c hc)
  · rfl

/-- Retrieval ranks the passages that share a keyword with the question. Over fewer than
`2^32` snippets of fewer than `2^32` keywords each and a query of fewer than `2^32`
keywords, ranking gives exactly the snippets that hold a query keyword, each once with the
sum of its terms, best first and equal ones in their given order; and retrieval with a
finite scan limit gives the first `countOf topK` entries of the ranking of the newest
`max 1 ⌊scanLimit⌋` passages for the keywords of the trimmed question. -/
theorem retrieve_ranks_matching_passages {α : Type} (query : List String)
    (snippets : List (α × String)) (t : Tables) (scanLimit : Float) (question : String) (topK : Float) :
    (snippets.length < 2 ^ 32 → query.length < 2 ^ 32 →
      (∀ s ∈ snippets, (keywords s.2).length < 2 ^ 32) →
      rank query snippets = ranking query snippets ∧
        (rank query snippets).Pairwise fun a b => value b.2 ≤ value a.2) ∧
    (isFinite scanLimit = true → t.chunks.length < 2 ^ 32 →
      (∀ c ∈ t.chunks, (keywords c.content).length < 2 ^ 32) →
      (keywords (Text.trim question)).length < 2 ^ 32 →
      retrieve t scanLimit question topK =
        if ⌊value scanLimit⌋ < 2 ^ 63 then
          .ok ((ranking (keywords (Text.trim question))
            ((t.chunks.reverse.take (max 1 ⌊value scanLimit⌋).toNat).map
              fun c => (c, c.content))).take (countOf topK))
        else .error (.storage "datatype mismatch")) := by
  refine ⟨fun hN hQ hL => ?_, fun hs hn hw hq => ?_⟩
  · rw [rank_eq_ranking query snippets hN hQ hL]
    exact ⟨rfl, ranking_sorted query snippets⟩
  · exact retrieve_eq t hs question topK hn hw hq

theorem retrieve_one_passage :
    rank ["disk"] [((1 : Nat), "disk full on node")] = ranking ["disk"] [(1, "disk full on node")] ∧
      retrieve { chunks := [⟨1, "ops", "disk full on node", ""⟩] } 1 "disk" 5 =
        .ok ((ranking ["disk"] [(⟨1, "ops", "disk full on node", ""⟩, "disk full on node")]).take 5) := by
  have hkw : keywords "disk full on node" = ["disk", "full", "on", "node"] := by cbv
  have hq : keywords (Text.trim "disk") = ["disk"] := by cbv
  have hw : (keywords "disk full on node").length < 2 ^ 32 := by rw [hkw]; decide
  obtain ⟨hrank, hretrieve⟩ := retrieve_ranks_matching_passages ["disk"] [((1 : Nat), "disk full on node")]
    { chunks := [⟨1, "ops", "disk full on node", ""⟩] } 1 "disk" 5
  refine ⟨(hrank (by decide) (by decide) (fun s hs => by rw [List.mem_singleton.1 hs]; exact hw)).1, ?_⟩
  rw [hretrieve (by decide) (by decide) (fun c hc => by rw [List.mem_singleton.1 hc]; exact hw)
    (by rw [hq]; decide)]
  have h1 : ⌊value (1 : Float)⌋ = 1 := by
    rw [floor_value, rank_one]
    exact Int.ediv_self (by positivity)
  have hk : countOf 5 = 5 := by decide
  rw [h1, if_pos (by norm_num), hq, hk]
  rfl

/-- A scan limit of zero still scans the newest passage: a question sharing a keyword with
it retrieves it. -/
theorem zero_scan_limit_retrieves_newest :
    retrieve { chunks := [⟨1, "ops", "disk full on node", ""⟩] } 0 "disk" 5 ≠ .ok [] := by
  have hkw : keywords "disk full on node" = ["disk", "full", "on", "node"] := by cbv
  have hq : keywords (Text.trim "disk") = ["disk"] := by cbv
  have hw : (keywords "disk full on node").length < 2 ^ 32 := by rw [hkw]; decide
  rw [retrieve_eq _ (by decide) _ _ (by decide) (fun c hc => by rw [List.mem_singleton.1 hc]; exact hw)
    (by rw [hq]; decide)]
  have h0 : ⌊value (0 : Float)⌋ = 0 := by
    rw [floor_value, show Decimal.rank (0 : Float) = 0 by decide, Int.zero_ediv]
  have hk : countOf 5 = 5 := by decide
  rw [h0, if_pos (by norm_num), hq]
  intro h
  have hl := congrArg List.length (Except.ok.inj h)
  rw [List.length_take, length_ranking _ _ (by simp)] at hl
  simp [hk, hkw] at hl

end LaneGate.Runbooks
