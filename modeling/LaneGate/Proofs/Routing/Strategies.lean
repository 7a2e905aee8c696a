import LaneGate.Proofs.Routing.Route
import LaneGate.Proofs.Sorting.Stable
import LaneGate.Proofs.Decimal.Signs
/-!
# What each strategy picks

Every ranked strategy of `Router.select` picks the first candidate of least value and
scores it with that value: the cost strategy by the estimated cost of the request, the
quality and failover strategies by priority, the latency strategy by the latency the
balancer expects, and the balanced strategy by a weighted sum of price, latency and
priority, each over its largest among the candidates. Ties go to the earlier candidate.

Three rankings do this in three ways. The cost, quality, failover and balanced strategies
sort with the merge sort of `Sorting`, which is the library's stable merge sort by the
order of the doubles (`Sorting.sortOn_eq_mergeSort`), and a stable sort puts the first
element of least value first (`FirstLeast.sortOn_eq`); the alternatives are the rest in
that order (`Sorting.ascending`). The latency strategy scans for a score strictly below
the best so far, starting from infinity (`Balancer.firstBest_first_least`); its
alternatives are the other candidates in their own order.

* `Router.select_picks_first_least` — for candidates with distinct names whose values are
  all numbers, each strategy's decision (`PicksFirstLeast`); and no candidate of estimated
  cost zero is passed over for one of positive cost.
* `Router.costOptimized_prefers_price_below_zero` — a price below zero, which the ledger
  takes as given, makes the cost strategy pass over a free candidate, for every input
  text; `Router.costOptimized_passes_over_free` is the case of the text "q".

The values are the model's doubles; "least" is their order, which ranks them as
`Decimal.rank` does. That no value is not-a-number is a hypothesis: the scores are
computed from prices, latencies and priorities that the model takes as given.
-/

namespace LaneGate

namespace Decimal

open Float.Model

/-- Positive infinity stands beyond every finite double. -/
theorem rank_infinity : rank infinity = beyond := rfl

theorem isNaN_infinity : infinity.isNaN = false := by decide

/-- A canonical value ranks no higher than positive infinity. -/
theorem rankOf_le_beyond {u : UnpackedFloat} (hu : Canonical u) : rankOf u ≤ beyond := by
  have := beyond_pos
  cases hu with
  | infinity s => cases s <;> simp only [rankOf] <;> omega
  | zero s => simp only [rankOf]; omega
  | finite s m e h hm hlo hhi hfull => exact Int.le_of_lt (rankOf_finite_bounds hm hhi).2

/-- No double but not-a-number ranks above positive infinity. -/
theorem rank_le_infinity {x : Float} (hx : x.isNaN = false) : rank x ≤ rank infinity :=
  rank_infinity ▸ rankOf_le_beyond (canonical_toModel hx)

end Decimal

namespace Sorting

variable {α β : Type}

/-- The list in stable ascending order of a numeric value: the library's merge sort by
the order of the doubles, equal values kept in the order they came. -/
def ascending (v : α → Float) (xs : List α) : List α :=
  xs.mergeSort (keyLE fun x => Decimal.rank (v x))

/-- `p` is the first element of least value `v` in `xs = pre ++ p :: post`: every element
before it has a larger value and none after it a smaller one. -/
structure FirstLeast (v : α → Float) (xs pre : List α) (p : α) (post : List α) : Prop where
  split : xs = pre ++ p :: post
  earlier : ∀ q ∈ pre, v p < v q
  later : ∀ q ∈ post, ¬ v q < v p

variable {v : α → Float} {xs : List α}

/-- Every non-empty list whose values are all numbers has a first element of least value. -/
theorem exists_firstLeast (v : α → Float) (hv : ∀ x ∈ xs, (v x).isNaN = false) (hxs : xs ≠ []) :
    ∃ pre p post, FirstLeast v xs pre p post := by
  obtain ⟨pre, p, post, hsplit, hpre, hpost⟩ :=
    exists_first_least (fun x => Decimal.rank (v x)) xs hxs
  have hp : (v p).isNaN = false := hv p (by simp [hsplit])
  refine ⟨pre, p, post, hsplit, fun q hq => ?_, fun q hq => ?_⟩
  · exact (Decimal.lt_iff_rank_lt hp (hv q (by simp [hsplit, hq]))).2 (hpre q hq)
  · rw [Decimal.lt_iff_rank_lt (hv q (by simp [hsplit, hq])) hp]
    exact Int.not_lt.2 (hpost q hq)

namespace FirstLeast

variable {pre post : List α} {p : α} (h : FirstLeast v xs pre p post)
include h

theorem mem : p ∈ xs := by simp [h.split]

/-- No element has a value below the first least one. -/
theorem least (hv : ∀ x ∈ xs, (v x).isNaN = false) : ∀ q ∈ xs, ¬ v q < v p := by
  intro q hq
  have hp := hv p h.mem
  have hq' := hv q hq
  rw [h.split, List.mem_append, List.mem_cons] at hq
  rcases hq with hq | rfl | hq
  · have hlt := (Decimal.lt_iff_rank_lt hp hq').1 (h.earlier q hq)
    rw [Decimal.lt_iff_rank_lt hq' hp]
    omega
  · rw [Decimal.lt_iff_rank_lt hp hp]
    exact Int.lt_irrefl _
  · exact h.later q hq

/-- Sorting by value puts the first least element first and the others after it in
stable order. -/
theorem ascending_eq (hv : ∀ x ∈ xs, (v x).isNaN = false) :
    ascending v xs = p :: ascending v (pre ++ post) := by
  have hp := hv p h.mem
  have hv' : ∀ q, q ∈ pre ∨ q ∈ post → (v q).isNaN = false := fun q hq =>
    hv q (by rw [h.split]; simp only [List.mem_append, List.mem_cons]; tauto)
  rw [ascending, h.split]
  refine mergeSort_of_first_least _ (fun q hq => ?_) (fun q hq => ?_)
  · exact (Decimal.lt_iff_rank_lt hp (hv' q (.inl hq))).1 (h.earlier q hq)
  · have := h.later q hq
    rw [Decimal.lt_iff_rank_lt (hv' q (.inr hq)) hp] at this
    omega

theorem sortOn_eq (hv : ∀ x ∈ xs, (v x).isNaN = false) :
    sortOn v xs = p :: ascending v (pre ++ post) := by
  rw [sortOn_eq_mergeSort v xs hv]
  exact h.ascending_eq hv

end FirstLeast

/-- Sorting pairs built from a list by the value of their image: the first least
element's pair first, the other pairs after it in stable order. -/
theorem FirstLeast.sortOn_map {k : β → Float} (g : α → β) {pre post : List α} {p : α}
    (h : FirstLeast (fun x => k (g x)) xs pre p post) (hv : ∀ x ∈ xs, (k (g x)).isNaN = false) :
    sortOn k (xs.map g) = g p :: (ascending (fun x => k (g x)) (pre ++ post)).map g := by
  have hv' : ∀ y ∈ xs.map g, (k y).isNaN = false := by
    intro y hy
    obtain ⟨x, hx, rfl⟩ := List.mem_map.1 hy
    exact hv x hx
  rw [sortOn_eq_mergeSort k _ hv', ← List.map_mergeSort (f := g) (r := keyLE fun x => Decimal.rank (k (g x)))
      (fun _ _ _ _ => rfl),
    ← ascending, h.ascending_eq hv, List.map_cons]

/-- Two elements are sorted with one comparison: they stay in order unless the second
goes strictly before the first. -/
theorem sortOn_pair (k : α → Float) (a b : α) (h : ¬ k b - k a < 0) : sortOn k [a, b] = [a, b] := by
  have hb : before (fun x y => k x - k y) b a = false := decide_eq_false h
  simp [sortOn, sort, sortArray, Sorter.cut, Sorter.runAt, Sorter.runAt.extend, Sorter.collapse,
    Sorter.forceCollapse, get, hb, minRunLength, minRunFrom]

end Sorting

namespace Balancer

variable {κ : Type} (score : Candidate κ → Primitive)

/-- One step of the scan for the least score: a candidate that scores below the best so
far becomes the best, at its position. -/
def scanStep (acc : Option Nat × Primitive × Nat) (c : Candidate κ) : Option Nat × Primitive × Nat :=
  if (score c).lessThan acc.2.1 then (some acc.2.2, score c, acc.2.2 + 1)
  else (acc.1, acc.2.1, acc.2.2 + 1)

theorem firstBest_eq_foldl (cs : List (Candidate κ)) :
    firstBest score cs = (cs.foldl (scanStep score) (none, .num Decimal.infinity, 0)).1 := rfl

theorem lessThan_num (a b : Float) : (Primitive.num a).lessThan (.num b) = decide (a < b) := rfl

variable {score} {f : Candidate κ → Float} {c : Candidate κ} {o : Option Nat} {m : Float} {n : Nat}

theorem scanStep_of_lt (hc : score c = .num (f c)) (h : f c < m) :
    scanStep score (o, .num m, n) c = (some n, .num (f c), n + 1) := by
  rw [scanStep, hc, lessThan_num, decide_eq_true h]
  rfl

theorem scanStep_of_not_lt (hc : score c = .num (f c)) (h : ¬ f c < m) :
    scanStep score (o, .num m, n) c = (o, .num m, n + 1) := by
  rw [scanStep, hc, lessThan_num, decide_eq_false h]
  rfl

/-- Candidates none of which scores below the best so far change nothing but the count. -/
theorem foldl_scanStep_keep : ∀ (xs : List (Candidate κ)) (o : Option Nat) (n : Nat),
    (∀ q ∈ xs, score q = .num (f q) ∧ ¬ f q < m) →
      xs.foldl (scanStep score) (o, .num m, n) = (o, .num m, n + xs.length)
  | [], _, _, _ => rfl
  | q :: xs, o, n, h => by
    have hq := h q List.mem_cons_self
    rw [List.foldl_cons, scanStep_of_not_lt hq.1 hq.2,
      foldl_scanStep_keep xs o (n + 1) fun q' hq' => h q' (List.mem_cons_of_mem q hq'),
      List.length_cons, Nat.add_right_comm, Nat.add_assoc]

/-- A candidate below the best so far, below every candidate before it and no higher than
any after it, is the one the scan ends on: the scan's best before it is always the score
of a candidate before it or the starting best. -/
theorem foldl_scanStep_first_least {post : List (Candidate κ)} (hc : score c = .num (f c))
    (hpost : ∀ q ∈ post, score q = .num (f q) ∧ ¬ f q < f c) :
    ∀ (pre : List (Candidate κ)) (o : Option Nat) (m : Float) (n : Nat),
      (∀ q ∈ pre, score q = .num (f q) ∧ f c < f q) → f c < m →
        ((pre ++ c :: post).foldl (scanStep score) (o, .num m, n)).1 = some (n + pre.length)
  | [], o, m, n, _, hm => by
    rw [List.nil_append, List.foldl_cons, scanStep_of_lt hc hm, foldl_scanStep_keep post _ _ hpost]
    rfl
  | q :: pre, o, m, n, hpre, hm => by
    obtain ⟨hq, hcq⟩ := hpre q List.mem_cons_self
    have hrest := fun q' hq' => hpre q' (List.mem_cons_of_mem q hq')
    rw [List.cons_append, List.foldl_cons, List.length_cons, ← Nat.add_assoc, Nat.add_right_comm]
    by_cases hqm : f q < m
    · rw [scanStep_of_lt hq hqm]
      exact foldl_scanStep_first_least hc hpost pre (some n) (f q) (n + 1) hrest hcq
    · rw [scanStep_of_not_lt hq hqm]
      exact foldl_scanStep_first_least hc hpost pre o m (n + 1) hrest hm

/-- The scan for the least score settles on the first candidate of least score, when
every score is a number; when that least score is infinity, nothing is found and the
first candidate is the one of least score. -/
theorem firstBest_first_least {pre post : List (Candidate κ)}
    (hs : ∀ q ∈ pre ++ c :: post, score q = .num (f q) ∧ (f q).isNaN = false)
    (hpre : ∀ q ∈ pre, f c < f q) (hpost : ∀ q ∈ post, ¬ f q < f c) :
    (firstBest score (pre ++ c :: post)).getD 0 = pre.length := by
  have hc := hs c (by simp)
  have hpre' : ∀ q ∈ pre, score q = .num (f q) ∧ f c < f q := fun q hq =>
    ⟨(hs q (by simp [hq])).1, hpre q hq⟩
  have hpost' : ∀ q ∈ post, score q = .num (f q) ∧ ¬ f q < f c := fun q hq =>
    ⟨(hs q (by simp [hq])).1, hpost q hq⟩
  by_cases hinf : f c < Decimal.infinity
  · rw [firstBest_eq_foldl, foldl_scanStep_first_least hc.1 hpost' pre none _ 0 hpre' hinf]
    simp
  · -- the least score is infinity: nothing ranks above it, so nothing precedes it, and
    have hI := Decimal.isNaN_infinity
    have hcI : Decimal.rank Decimal.infinity ≤ Decimal.rank (f c) := by
      rw [Decimal.lt_iff_rank_lt hc.2 hI] at hinf
      omega
    have hnil : pre = [] := by
      cases pre with
      | nil => rfl
      | cons q pre =>
        have hq := (hs q (by simp)).2
        have hlt := (Decimal.lt_iff_rank_lt hc.2 hq).1 (hpre q List.mem_cons_self)
        have := Decimal.rank_le_infinity hq
        omega
    subst hnil
    have hkeep : ∀ q ∈ [] ++ c :: post, score q = .num (f q) ∧ ¬ f q < Decimal.infinity := by
      intro q hq
      refine ⟨(hs q hq).1, ?_⟩
      rw [Decimal.lt_iff_rank_lt (hs q hq).2 hI]
      rw [List.nil_append, List.mem_cons] at hq
      rcases hq with rfl | hq
      · omega
      · have := hpost q hq
        rw [Decimal.lt_iff_rank_lt (hs q (by simp [hq])).2 hc.2] at this
        omega
    rw [firstBest_eq_foldl, foldl_scanStep_keep _ none 0 hkeep]
    rfl

end Balancer

namespace Router

open Sorting

/-! ### The values the strategies rank by -/

/-- The estimated cost of a request on a provider, which the cost strategy ranks by. -/
def costOf (r : Router) (text : String) (p : Provider) : Float :=
  (r.ledger.estimate p text).estimatedCost

/-- The latency the balancer expects of a provider: the mean of its recorded samples, or
its average latency when none is recorded. -/
def latencyOf (r : Router) (p : Provider) : Float :=
  (Primitive.ofOption (r.balancer.expectedLatency p.candidate)).toNumber

/-- The balanced score of a provider among the candidates: its price, its average latency
and its priority, each over the largest among the candidates (zero when that largest is
not above zero), weighted 0.3, 0.3 and 0.4. -/
def balancedScore (r : Router) (cs : List Provider) (p : Provider) : Float :=
  0.3 * normalized (r.ledger.costPer1k p) (Decimal.maximum (cs.map r.ledger.costPer1k)) +
    0.3 * normalized p.avgLatencyMs (Decimal.maximum (cs.map (·.avgLatencyMs))) +
    0.4 * normalized p.priority (Decimal.maximum (cs.map (·.priority)))

/-- The estimated cost is the request's tokens, in thousands, times the price. -/
theorem costOf_eq (r : Router) (text : String) (p : Provider) :
    r.costOf text p =
      ((estimateTokens text).toFloat + defaultOutputTokens) / 1000 * r.ledger.costPer1k p := rfl

/-- The request's tokens in thousands are a number of positive sign, whatever the text. -/
theorem signed_thousands (text : String) :
    Decimal.Signed .positive
      (((estimateTokens text).toFloat + defaultOutputTokens) / 1000).toModel.unpack :=
  Decimal.signed_div (t := .positive)
    (Decimal.signed_add (Decimal.signed_toFloat _) ⟨_, _, _, rfl⟩) ⟨_, _, _, rfl⟩

/-- A finite price gives an estimated cost that is a number. -/
theorem isNaN_costOf (r : Router) (text : String) {p : Provider} {t : Float.Model.UnpackedFloat.Sign}
    (hp : ∃ m e h, (r.ledger.costPer1k p).toModel.unpack = .finite t m e h) :
    (r.costOf text p).isNaN = false :=
  (Decimal.signed_mul (signed_thousands text) hp).isNaN

/-- With no custom prices, the ledger prices each provider at its own price. -/
theorem costPer1k_of_no_custom {l : Ledger} (h : l.customCosts = []) (p : Provider) :
    l.costPer1k p = p.costPer1kTokens := by
  simp only [Ledger.costPer1k, Ledger.priceGiven, h, List.find?_nil]
  rfl

theorem ofOption_expectedLatency (r : Router) (p : Provider) :
    Primitive.ofOption (r.balancer.expectedLatency p.candidate) = .num (r.latencyOf p) := by
  unfold latencyOf Balancer.expectedLatency
  split <;> rfl

/-! ### The decisions -/

/-- The names of the candidates other than one of them, when names are distinct: those
before it and those after it, in order. -/
theorem othersThan_split {pre post : List Provider} {p : Provider}
    (hn : ((pre ++ p :: post).map (·.name)).Nodup) :
    othersThan (pre ++ p :: post) p = (pre ++ post).map (·.name) := by
  rw [List.map_append, List.map_cons, List.nodup_append, List.nodup_cons] at hn
  have hpre : ∀ q ∈ pre, (q.name != p.name) = true := fun q hq =>
    bne_iff_ne.2 (hn.2.2 _ (List.mem_map_of_mem hq) _ List.mem_cons_self)
  have hpost : ∀ q ∈ post, (q.name != p.name) = true := fun q hq =>
    bne_iff_ne.2 fun h => hn.2.1.1 (h ▸ List.mem_map_of_mem hq)
  rw [othersThan, List.filter_append, List.filter_cons, bne_self_eq_false, if_neg (by decide),
    List.filter_eq_self.2 hpre, List.filter_eq_self.2 hpost]

theorem getD_split (pre post : List Provider) (p d : Provider) :
    (pre ++ p :: post).getD pre.length d = p := by
  simp [List.getD_eq_getElem?_getD]

variable (r : Router) {cs : List Provider} (text : String) (cid : Option String) (now : Float)

/-- The cost strategy picks the first candidate of least estimated cost, reports that
cost, and names the next three in stable order of cost. -/
theorem select_costOptimized (hcs : cs ≠ []) (hv : ∀ p ∈ cs, (r.costOf text p).isNaN = false) :
    ∃ pre p post, FirstLeast (r.costOf text) cs pre p post ∧
      r.select cs text .costOptimized cid now =
        (⟨p, .known .costOptimized, r.costOf text p,
          ((ascending (r.costOf text) (pre ++ post)).take maxAlternatives).map (·.name),
          "Lowest cost: $" ++ Decimal.fixedText (r.costOf text p) 6, cid, now⟩, r) := by
  obtain ⟨pre, p, post, h⟩ := exists_firstLeast _ hv hcs
  refine ⟨pre, p, post, h, ?_⟩
  have hrank := h.sortOn_map (k := fun e : Provider × CostEstimate => e.2.estimatedCost)
    (fun q => (q, r.ledger.estimate q text)) hv
  simp only [select, Ledger.rank]
  rw [hrank]
  simp only [List.map_take, List.map_map, Function.comp_def]
  rfl

/-- The quality and failover strategies pick the first candidate of least priority and
report its priority; quality names the next three in stable order of priority, failover
all the others. -/
theorem select_by_priority (hcs : cs ≠ []) (hv : ∀ p ∈ cs, p.priority.isNaN = false) :
    ∃ pre p post, FirstLeast (·.priority) cs pre p post ∧
      r.select cs text .qualityOptimized cid now =
        (⟨p, .known .qualityOptimized, p.priority,
          ((ascending (·.priority) (pre ++ post)).take maxAlternatives).map (·.name),
          "Highest quality (priority " ++ Decimal.numberText p.priority ++ ")", cid, now⟩, r) ∧
      r.select cs text .failover cid now =
        (⟨p, .known .failover, p.priority, (ascending (·.priority) (pre ++ post)).map (·.name),
          "Primary: " ++ p.name ++ ", failovers: " ++ toString (pre ++ post).length, cid, now⟩,
          r) := by
  obtain ⟨pre, p, post, h⟩ := exists_firstLeast _ hv hcs
  refine ⟨pre, p, post, h, ?_, ?_⟩ <;> simp only [select, h.sortOn_eq hv]
  · rw [if_neg (by decide), List.map_take]
  · rw [if_pos (by decide), ascending, List.length_mergeSort]

/-- The latency strategy picks the first candidate of least expected latency, reports
that latency, and names the first three other candidates in their order. -/
theorem select_latencyOptimized (hcs : cs ≠ []) (hn : (cs.map (·.name)).Nodup)
    (hv : ∀ p ∈ cs, (r.latencyOf p).isNaN = false) :
    ∃ pre p post, FirstLeast r.latencyOf cs pre p post ∧
      r.select cs text .latencyOptimized cid now =
        (⟨p, .known .latencyOptimized, r.latencyOf p,
          ((pre ++ post).map (·.name)).take maxAlternatives,
          "Lowest latency: " ++ Decimal.numberText (Decimal.roundHalfUp (r.latencyOf p)) ++ "ms",
          cid, now⟩, r) := by
  obtain ⟨pre, p, post, h⟩ := exists_firstLeast _ hv hcs
  refine ⟨pre, p, post, h, ?_⟩
  have hidx : (r.balancer.fastest (cs.map Provider.candidate)).getD 0 = pre.length := by
    rw [h.split, List.map_append, List.map_cons]
    have hmem : ∀ c ∈ pre.map Provider.candidate ++ p.candidate :: post.map Provider.candidate,
        ∃ q ∈ cs, c = q.candidate := by
      intro c hc
      rw [← List.map_cons, ← List.map_append, ← h.split] at hc
      obtain ⟨q, hq, rfl⟩ := List.mem_map.1 hc
      exact ⟨q, hq, rfl⟩
    refine (Balancer.firstBest_first_least
      (f := fun c => (Primitive.ofOption (r.balancer.expectedLatency c)).toNumber)
      (fun c hc => ?_) (fun c hc => ?_) (fun c hc => ?_)).trans (List.length_map _)
    · obtain ⟨q, hq, rfl⟩ := hmem c hc
      exact ⟨ofOption_expectedLatency r q, hv q hq⟩
    · obtain ⟨q, hq, rfl⟩ := List.mem_map.1 hc
      exact h.earlier q hq
    · obtain ⟨q, hq, rfl⟩ := List.mem_map.1 hc
      exact h.later q hq
  simp only [select]
  rw [h.split] at hn hidx ⊢
  split
  · next i hi =>
    rw [hi, Option.getD_some] at hidx
    rw [hidx, getD_split, othersThan_split hn]
    rfl
  · next hi =>
    rw [hi, Option.getD_none] at hidx
    obtain rfl := List.eq_nil_of_length_eq_zero hidx.symm
    have hothers := othersThan_split hn
    simp only [List.nil_append, List.headD_cons] at hothers ⊢
    rw [hothers]
    rfl

/-- The balanced strategy picks the first candidate of least balanced score, reports that
score, and names the next three in stable order of score. -/
theorem select_balanced (hcs : cs ≠ []) (hv : ∀ p ∈ cs, (r.balancedScore cs p).isNaN = false) :
    ∃ pre p post, FirstLeast (r.balancedScore cs) cs pre p post ∧
      r.select cs text .balanced cid now =
        (⟨p, .known .balanced, r.balancedScore cs p,
          ((ascending (r.balancedScore cs) (pre ++ post)).take maxAlternatives).map (·.name),
          "Balanced score: " ++ Decimal.fixedText (r.balancedScore cs p) 3, cid, now⟩, r) := by
  obtain ⟨pre, p, post, h⟩ := exists_firstLeast _ hv hcs
  refine ⟨pre, p, post, h, ?_⟩
  have hscored := h.sortOn_map (k := fun e : Provider × Float => e.2)
    (fun q => (q, r.balancedScore cs q)) hv
  simp only [select, ← List.map_prod_left_eq_zip, List.map_map, Function.comp_def]
  simp only [balancedScore] at hscored
  rw [hscored]
  simp only [List.map_take, List.map_map, Function.comp_def]
  rfl

/-- A decision that picks `d.provider`, the first candidate of least value `v` in
`cs = pre ++ d.provider :: post`, scores it with its value, and names `alts (pre ++ post)`
as alternatives. -/
structure PicksFirstLeast (v : Provider → Float) (cs : List Provider) (d : Decision)
    (alts : List Provider → List String) : Prop where
  first : ∃ pre post, FirstLeast v cs pre d.provider post ∧ d.alternatives = alts (pre ++ post)
  score : d.score = v d.provider

/-- Each ranked strategy picks the first candidate of least value, ties going to the
earlier candidate, and reports that value: cost by estimated cost, with the next three in
stable order of cost; quality and failover by priority, with the next three, or all the
others, in stable order of priority; latency by expected latency, with the first three
others in their order; balanced by balanced score, with the next three in stable order of
score. A candidate of estimated cost zero keeps the cost strategy's pick from costing more. -/
theorem select_picks_first_least (hcs : cs ≠ []) (hn : (cs.map (·.name)).Nodup)
    (hcost : ∀ p ∈ cs, (r.costOf text p).isNaN = false)
    (hprio : ∀ p ∈ cs, p.priority.isNaN = false)
    (hlat : ∀ p ∈ cs, (r.latencyOf p).isNaN = false)
    (hbal : ∀ p ∈ cs, (r.balancedScore cs p).isNaN = false) :
    PicksFirstLeast (r.costOf text) cs (r.select cs text .costOptimized cid now).1
      (fun rest => ((ascending (r.costOf text) rest).take maxAlternatives).map (·.name)) ∧
    (∀ q ∈ cs, r.costOf text q = 0 → ¬ 0 < (r.select cs text .costOptimized cid now).1.score) ∧
    PicksFirstLeast (·.priority) cs (r.select cs text .qualityOptimized cid now).1
      (fun rest => ((ascending (·.priority) rest).take maxAlternatives).map (·.name)) ∧
    PicksFirstLeast (·.priority) cs (r.select cs text .failover cid now).1
      (fun rest => (ascending (·.priority) rest).map (·.name)) ∧
    PicksFirstLeast r.latencyOf cs (r.select cs text .latencyOptimized cid now).1
      (fun rest => (rest.map (·.name)).take maxAlternatives) ∧
    PicksFirstLeast (r.balancedScore cs) cs (r.select cs text .balanced cid now).1
      (fun rest => ((ascending (r.balancedScore cs) rest).take maxAlternatives).map (·.name)) := by
  obtain ⟨pre, p, post, hc, hcd⟩ := select_costOptimized r text cid now hcs hcost
  obtain ⟨preQ, q, postQ, hq, hqd, hfd⟩ := select_by_priority r text cid now hcs hprio
  obtain ⟨preL, l, postL, hl, hld⟩ := select_latencyOptimized r text cid now hcs hn hlat
  obtain ⟨preB, b, postB, hb, hbd⟩ := select_balanced r text cid now hcs hbal
  rw [hcd, hqd, hfd, hld, hbd]
  refine ⟨⟨⟨pre, post, hc, rfl⟩, rfl⟩, fun z hz hzero => ?_, ⟨⟨preQ, postQ, hq, rfl⟩, rfl⟩,
    ⟨⟨preQ, postQ, hq, rfl⟩, rfl⟩, ⟨⟨preL, postL, hl, rfl⟩, rfl⟩, ⟨⟨preB, postB, hb, rfl⟩, rfl⟩⟩
  have := hc.least hcost z hz
  rwa [hzero] at this

/-- The theorem's hypotheses hold of the two providers of `twoProviders`, which differ in
latency only: every estimate is a number, since the prices are finite. -/
theorem select_picks_first_least_two_providers :
    let r := twoProviders
    let cs := r.providers.entries.map (·.provider)
    let text := "hello"
    let now : Float := 1773144090000
    (cs ≠ [] ∧ (cs.map (·.name)).Nodup ∧ (∀ p ∈ cs, (r.costOf text p).isNaN = false) ∧
      (∀ p ∈ cs, p.priority.isNaN = false) ∧ (∀ p ∈ cs, (r.latencyOf p).isNaN = false) ∧
      (∀ p ∈ cs, (r.balancedScore cs p).isNaN = false)) ∧
    PicksFirstLeast (r.costOf text) cs (r.select cs text .costOptimized none now).1
      (fun rest => ((ascending (r.costOf text) rest).take maxAlternatives).map (·.name)) ∧
    (∀ q ∈ cs, r.costOf text q = 0 → ¬ 0 < (r.select cs text .costOptimized none now).1.score) ∧
    PicksFirstLeast (·.priority) cs (r.select cs text .qualityOptimized none now).1
      (fun rest => ((ascending (·.priority) rest).take maxAlternatives).map (·.name)) ∧
    PicksFirstLeast (·.priority) cs (r.select cs text .failover none now).1
      (fun rest => (ascending (·.priority) rest).map (·.name)) ∧
    PicksFirstLeast r.latencyOf cs (r.select cs text .latencyOptimized none now).1
      (fun rest => (rest.map (·.name)).take maxAlternatives) ∧
    PicksFirstLeast (r.balancedScore cs) cs (r.select cs text .balanced none now).1
      (fun rest => ((ascending (r.balancedScore cs) rest).take maxAlternatives).map (·.name)) := by
  intro r cs text now
  have hcs : cs ≠ [] := List.cons_ne_nil _ _
  have hn : (cs.map (·.name)).Nodup := by decide
  have hcost : ∀ p ∈ cs, (r.costOf text p).isNaN = false := by
    intro p hp
    simp only [cs, r, twoProviders, List.map_cons, List.map_nil, List.mem_cons, List.not_mem_nil,
      or_false] at hp
    rcases hp with rfl | rfl <;>
      exact isNaN_costOf _ _ (t := .positive) (by rw [costPer1k_of_no_custom rfl]; exact ⟨_, _, _, rfl⟩)
  have hprio : ∀ p ∈ cs, p.priority.isNaN = false := by decide
  have hlat : ∀ p ∈ cs, (r.latencyOf p).isNaN = false := by decide
  have hbal : ∀ p ∈ cs, (r.balancedScore cs p).isNaN = false := by decide
  exact ⟨⟨hcs, hn, hcost, hprio, hlat, hbal⟩,
    select_picks_first_least r text none now hcs hn hcost hprio hlat hbal⟩

/-! ### A price below zero -/

/-- A router whose ledger prices the provider named "paid" at -1 per thousand tokens. -/
def pricedBelowZero : Router := { ledger := Ledger.create {} [("paid", .num (-1))] 1773144000000 }

/-- A provider of the given name and price, with the defaults for everything else. -/
def offered (name : String) (price : Float) : Provider :=
  ⟨name, .openaiCompatible, some (.str "m"), 10, 1, price, 1000, .num 4096, [.str "chat"], .bool true,
    60, .num 0, .null, .num 1, .null⟩

/-- The ledger takes a custom price as given, also below zero, so a request costs less on
the provider priced at -1 than on a free one after it, and the cost strategy picks the
first: whatever the input text and its count of tokens, since only the signs of the two
estimates matter. -/
theorem costOptimized_prefers_price_below_zero (text : String) (cid : Option String) (now : Float) :
    (pricedBelowZero.select [offered "paid" 0.5, offered "free" 0] text .costOptimized cid now).1.provider.name =
      "paid" := by
  have hfree : pricedBelowZero.ledger.costPer1k (offered "free" 0) = 0 := by decide
  have hpaid : pricedBelowZero.ledger.costPer1k (offered "paid" 0.5) = -1 := by decide
  -- the free estimate is a zero, the other one is below zero or a zero: never strictly after
  have hkeep : ¬ pricedBelowZero.costOf text (offered "free" 0) -
      pricedBelowZero.costOf text (offered "paid" 0.5) < 0 := by
    rw [costOf_eq, costOf_eq, hfree, hpaid]
    exact Decimal.not_mul_zero_sub_mul_lt_zero (signed_thousands text) ⟨_, _, _, rfl⟩
  simp only [select, Ledger.rank, List.map_cons, List.map_nil]
  rw [sortOn_pair (fun e : Provider × CostEstimate => e.2.estimatedCost)
    (offered "paid" 0.5, pricedBelowZero.ledger.estimate (offered "paid" 0.5) text)
    (offered "free" 0, pricedBelowZero.ledger.estimate (offered "free" 0) text) hkeep]
  rfl

/-- A free candidate is not always picked: routing "q" by cost between a provider priced at
-1 by the ledger and a free one picks the first. -/
theorem costOptimized_passes_over_free :
    pricedBelowZero.ledger.costPer1k (offered "free" 0) = 0 ∧
      (pricedBelowZero.select [offered "paid" 0.5, offered "free" 0] "q" .costOptimized none
        1773144000000).1.provider.name = "paid" :=
  ⟨by decide, costOptimized_prefers_price_below_zero "q" none 1773144000000⟩

end Router

end LaneGate
