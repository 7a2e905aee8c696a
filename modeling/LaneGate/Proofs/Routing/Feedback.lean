import LaneGate.Proofs.Routing.Ledger
import LaneGate.Routing.Router
/-!
# Reports to the router under any interleaving

Every call to a provider is reported to the router twice: once when it starts, and
once when it ends, with its latency, tokens and cost. Calls run concurrently, so the
reports of different calls interleave in any order; each report is one atomic step
of the router. `Feedback` is such a report and `Router.feed` runs a list of them.

`Interleaves` says which lists of reports calls in flight can produce: every call
started is ended later, exactly once, by a report under its provider's name. A
report ends one of the calls of its provider still in flight; which one does not
matter to the router.

## What is proved

* `Balancer.inFlight_recordStart`, `Balancer.inFlight_recordEnd`: a start counts one
  more request in flight for its name, an end one fewer (never below zero); every
  other name keeps its count.
* `Router.inFlight_feed`: under any interleaving, the count of a name goes down by
  the calls still in flight at the start of the run, as long as it covered them.
* `Router.records_feed`: at clock readings that are dates, every report of a call
  that cost something adds a usage record to the ledger (the last 1000 kept).
* `Router.feed_balanced`: once every call has ended, the count in flight of every
  name is back where it was, its window of response times gained one sample per call
  (the last 100 kept), and the ledger gained one record per call that cost something.
-/

namespace LaneGate

/-! ### Keyed lists -/

section Keyed

variable {κ α : Type} [BEq κ] [LawfulBEq κ]

theorem lookup_eq_none_iff (xs : List (κ × α)) (key : κ) :
    lookup xs key = none ↔ xs.any (·.1 == key) = false := by
  simp [lookup, List.find?_eq_none]

/-- Changing the value of a key by `f`: the key's value is `f` of the old one. -/
theorem lookup_upsert_self (xs : List (κ × α)) (key : κ) (f : Option α → α) :
    lookup (upsert xs key f) key = some (f (lookup xs key)) := by
  unfold upsert
  split
  · -- the key has entries: each is changed, and the first is found
    next hany =>
    obtain ⟨⟨k, v⟩, hx⟩ := Option.isSome_iff_exists.1 (List.find?_isSome.2 (List.any_eq_true.1 hany))
    have hkey : k = key := by simpa using List.find?_some hx
    subst hkey
    have hpred : ((fun (x : κ × α) => x.1 == k) ∘ fun (kv : κ × α) =>
        if kv.1 == k then (kv.1, f (some kv.2)) else kv) = fun x => x.1 == k := by
      funext y
      by_cases hy : y.1 = k <;> simp [hy]
    unfold lookup
    rw [List.find?_map, hpred, hx]
    simp only [Option.map_some, beq_self_eq_true, if_true]
  · -- the key has no entry: one is added at the end
    next hany =>
    have hnone := (lookup_eq_none_iff xs key).2 (eq_false_of_ne_true hany)
    simp only [lookup] at hnone ⊢
    rw [List.find?_append, Option.map_eq_none_iff.1 hnone]
    simp

/-- Changing the value of a key leaves every other key's value as it was. -/
theorem lookup_upsert_of_ne (xs : List (κ × α)) {key n : κ} (f : Option α → α) (h : n ≠ key) :
    lookup (upsert xs key f) n = lookup xs n := by
  unfold upsert lookup
  split
  · rw [List.find?_map]
    have hpred : ((fun (x : κ × α) => x.1 == n) ∘ fun (kv : κ × α) =>
        if kv.1 == key then (kv.1, f (some kv.2)) else kv) = fun x => x.1 == n := by
      funext y
      by_cases hy : y.1 = key <;> simp [hy]
    rw [hpred]
    cases hx : xs.find? (·.1 == n) with
    | none => rfl
    | some x =>
      have hxn : x.1 = n := by simpa using List.find?_some hx
      have hxk : (x.1 == key) = false := by simp [hxn, h]
      simp [hxk]
  · rw [List.find?_append]
    cases hfound : xs.find? (·.1 == n) with
    | some x => simp
    | none => simp [Ne.symm h]

end Keyed

/-! ### The balancer -/

namespace Balancer

/-- The response times kept for a name. -/
def samples (b : Balancer String) (name : String) : List Primitive := (lookup b.latencies name).getD []

/-- A start counts one more request in flight for its name. -/
theorem inFlight_recordStart (b : Balancer String) (key n : String) :
    (b.recordStart key).inFlight n = b.inFlight n + if n = key then 1 else 0 := by
  unfold recordStart inFlight
  by_cases hn : n = key
  · subst hn
    rw [lookup_upsert_self]
    simp
  · rw [lookup_upsert_of_ne _ _ hn]
    simp [hn]

/-- An end counts one request fewer in flight for its name, never below zero. -/
theorem inFlight_recordEnd (b : Balancer String) (key n : String) (ms : Primitive) :
    (b.recordEnd key ms).inFlight n = if n = key then b.inFlight n - 1 else b.inFlight n := by
  unfold recordEnd inFlight
  by_cases hn : n = key
  · subst hn
    simp only [if_true]
    split
    · rw [lookup_upsert_self]
      simp
    · -- no count under the name: it stays at zero
      next hany =>
      rw [(lookup_eq_none_iff _ _).2 (eq_false_of_ne_true hany)]
      rfl
  · simp only [hn, if_false]
    split
    · rw [lookup_upsert_of_ne _ _ hn]
    · rfl

theorem samples_recordStart (b : Balancer String) (key n : String) :
    (b.recordStart key).samples n = b.samples n := rfl

/-- An end adds its response time to the window of its name, which keeps the last
`latencyWindow`. -/
theorem length_samples_recordEnd (b : Balancer String) (key n : String) (ms : Primitive) :
    ((b.recordEnd key ms).samples n).length =
      if n = key then min latencyWindow ((b.samples n).length + 1) else (b.samples n).length := by
  unfold recordEnd samples
  by_cases hn : n = key
  · subst hn
    rw [lookup_upsert_self]
    simp only [Option.getD_some, List.length_drop, List.length_append, List.length_singleton, if_true]
    omega
  · simp only [lookup_upsert_of_ne _ _ hn, hn, if_false]

end Balancer

/-! ### The ledger -/

namespace Ledger

/-- Both totals of the ledger started at clock readings that are dates. -/
def Dated (l : Ledger) : Prop :=
  (Clock.clip? l.lastDailyReset).isSome ∧ (Clock.clip? l.lastMonthlyReset).isSome

instance (l : Ledger) : Decidable l.Dated :=
  inferInstanceAs (Decidable ((Clock.clip? l.lastDailyReset).isSome ∧ (Clock.clip? l.lastMonthlyReset).isSome))

/-- A usage recorded adds one record; the last `maxUsageRecords` are kept. -/
theorem length_records_record {l l' : Ledger} {provider : String} {tokens cost : Primitive}
    {now : Float} (h : l.record provider tokens cost now = .ok l') :
    l'.records.length = min maxUsageRecords (l.records.length + 1) := by
  unfold record at h
  split at h
  · injection h with h
    subst h
    simp only [List.length_drop, List.length_append, List.length_singleton]
    split <;> split <;> first | omega | (dsimp only; omega)
  · cases h

/-- At a date, a ledger whose totals started at dates records a usage, and its totals
still started at dates. -/
theorem record_dated {l : Ledger} (hl : l.Dated) (provider : String) (tokens cost : Primitive)
    {now : Float} (hnow : (Clock.clip? now).isSome) :
    ∃ l', l.record provider tokens cost now = .ok l' ∧ l'.Dated := by
  obtain ⟨t, ht⟩ := Option.isSome_iff_exists.1 hnow
  obtain ⟨day, hd⟩ := Option.isSome_iff_exists.1 hl.1
  obtain ⟨month, hm⟩ := Option.isSome_iff_exists.1 hl.2
  obtain ⟨l', hr, -, -, hdreset, -, hmreset⟩ := record_ok l provider tokens cost ht hd hm
  refine ⟨l', hr, ?_, ?_⟩
  · rw [hdreset]
    split
    · exact hl.1
    · exact hnow
  · rw [hmreset]
    split
    · exact hl.2
    · exact hnow

/-- A usage the ledger fails to record fails for a clock reading that is no date. -/
theorem record_textful (l : Ledger) (provider : String) (tokens cost : Primitive) (now : Float) :
    Fault.textful (l.record provider tokens cost now) = true := by
  unfold record
  split <;> rfl

end Ledger

/-! ### One report -/

/-- At a date, folding a finished call into a provider's averages succeeds, whether or
not a provider of that name is registered. -/
theorem Providers.recordOutcome_ok (ps : Providers) (name : String) (success : Bool)
    (latencyMs alpha : Float) {now : Float} (hnow : (Clock.clip? now).isSome) :
    (ps.recordOutcome name success latencyMs alpha now).1 = .ok () := by
  obtain ⟨t, ht⟩ := Option.isSome_iff_exists.1 hnow
  unfold Providers.recordOutcome
  dsimp only
  split
  · rfl
  · simp [ht]

theorem Providers.recordOutcome_textful (ps : Providers) (name : String) (success : Bool)
    (latencyMs alpha now : Float) : Fault.textful (ps.recordOutcome name success latencyMs alpha now).1 = true := by
  unfold Providers.recordOutcome
  dsimp only
  split
  · rfl
  · split <;> rfl

namespace Router

theorem recordStart_balancer (r : Router) (name : String) (now : Float) :
    (r.recordStart name now).balancer = r.balancer.recordStart name := rfl

theorem recordStart_ledger (r : Router) (name : String) (now : Float) :
    (r.recordStart name now).ledger = r.ledger := rfl

/-- The end of a call always reaches the balancer, whatever happens after it. -/
theorem recordResult_balancer (r : Router) (c : CallReport) (now : Float) :
    (r.recordResult c now).2.balancer =
      r.balancer.recordEnd c.providerName.text (Primitive.ofOption c.latencyMs) := by
  unfold recordResult
  dsimp only
  repeat' split
  all_goals rfl

/-- Whether a report is of a call that cost something, which the ledger records. -/
def charged (c : CallReport) : Bool := Primitive.lessThan (.num 0) (Primitive.ofJson c.cost)

/-- **One end report at a date.** With the ledger's totals started at dates, the
report is recorded in full; the ledger records a usage exactly when the call cost
something, and its totals still started at dates. -/
theorem recordResult_dated (r : Router) (c : CallReport) {now : Float} (hnow : (Clock.clip? now).isSome)
    (hl : r.ledger.Dated) :
    (r.recordResult c now).1 = .ok () ∧ (r.recordResult c now).2.ledger.Dated ∧
      (r.recordResult c now).2.ledger.records.length =
        if charged c then min maxUsageRecords (r.ledger.records.length + 1)
        else r.ledger.records.length := by
  by_cases hc : charged c
  · -- the call cost something: the ledger records it, at a date
    obtain ⟨l', hr, hd⟩ := Ledger.record_dated hl c.providerName.text
      (Primitive.ofJson c.tokensUsed) (Primitive.ofJson c.cost) hnow
    have hlen := Ledger.length_records_record hr
    rw [if_pos hc]
    unfold recordResult
    dsimp only
    simp only [charged] at hc
    simp only [hc, if_true, hr]
    split
    · exact ⟨Providers.recordOutcome_ok _ _ _ _ _ hnow, hd, hlen⟩
    · exact ⟨rfl, hd, hlen⟩
  · rw [if_neg hc]
    unfold recordResult
    dsimp only
    simp only [charged, Bool.not_eq_true] at hc
    simp only [hc, Bool.false_eq_true, if_false]
    split
    · exact ⟨Providers.recordOutcome_ok _ _ _ _ _ hnow, hl, rfl⟩
    · exact ⟨rfl, hl, rfl⟩

/-- A report the router fails to record fails with a fault that has a text. -/
theorem recordResult_textful (r : Router) (c : CallReport) (now : Float) :
    Fault.textful (r.recordResult c now).1 = true := by
  unfold recordResult
  dsimp only
  split
  · next f hf =>
    split at hf
    · have h := Ledger.record_textful r.ledger c.providerName.text (Primitive.ofJson c.tokensUsed)
        (Primitive.ofJson c.cost) now
      rwa [hf] at h
    · cases hf
  · split
    · exact Providers.recordOutcome_textful _ _ _ _ _ _
    · rfl

end Router

/-! ### Runs of reports -/

/-- A report to the router: the start of a call to the provider of a name, or the
end of a call with its report, each at a clock reading. -/
inductive Feedback where
  /-- A call to the provider of `name` starts. -/
  | start (name : String) (time : Float)
  /-- A call ends, with its report. -/
  | finish (report : CallReport) (time : Float)

namespace Feedback

/-- When a report is made. -/
def time : Feedback → Float
  | .start _ t | .finish _ t => t

/-- Whether a report starts a call to the provider of a name. -/
def starts (name : String) : Feedback → Bool
  | .start n _ => n == name
  | .finish .. => false

/-- Whether a report ends a call to the provider of a name. -/
def ends (name : String) : Feedback → Bool
  | .start .. => false
  | .finish c _ => c.providerName.text == name

/-- Whether a report ends a call that cost something. -/
def charges : Feedback → Bool
  | .start .. => false
  | .finish c _ => Router.charged c

end Feedback

/-- Feeds reports to the router in order. -/
def Router.feed (r : Router) : List Feedback → Router
  | [] => r
  | .start n t :: fs => (r.recordStart n t).feed fs
  | .finish c t :: fs => (r.recordResult c t).2.feed fs

/-- The runs of reports that calls in flight can make, from the names of the calls
started and not yet ended: a call may start at any time, and a report may end any
call in flight under its provider's name; at the end no call is in flight. -/
inductive Interleaves : List String → List Feedback → Prop where
  /-- Every call has ended. -/
  | done : Interleaves [] []
  /-- A call to the provider of `n` starts. -/
  | start {o : List String} {fs : List Feedback} {n : String} {t : Float} :
      Interleaves (n :: o) fs → Interleaves o (.start n t :: fs)
  /-- A call in flight ends. -/
  | finish {o : List String} {fs : List Feedback} {c : CallReport} {t : Float} :
      c.providerName.text ∈ o → Interleaves (o.erase c.providerName.text) fs →
      Interleaves o (.finish c t :: fs)

/-- Every call in flight ends once: the ends of a name are its starts and the calls
of it already in flight. -/
theorem Interleaves.count_ends {o : List String} {fs : List Feedback} (h : Interleaves o fs)
    (n : String) : fs.countP (Feedback.ends n) = fs.countP (Feedback.starts n) + o.count n := by
  induction h with
  | done => rfl
  | @start o fs m t _ ih =>
    by_cases hm : m = n
    · subst hm
      simp [Feedback.ends, Feedback.starts] at ih ⊢
      omega
    · simp [Feedback.ends, Feedback.starts, hm] at ih ⊢
      omega
  | @finish o fs c t hmem _ ih =>
    rw [List.count_erase] at ih
    by_cases hc : c.providerName.text = n
    · -- the call ended was one of those of `n` in flight
      have hpos := List.count_pos_iff.2 (hc ▸ hmem)
      simp [Feedback.ends, Feedback.starts, hc] at ih ⊢
      omega
    · simp [Feedback.ends, Feedback.starts, hc] at ih ⊢
      omega

namespace Router

/-- **Counts in flight over a run.** Under any interleaving, the count of a name ends
lower by the calls of it in flight when the run starts, as long as the count covered
them; the invariant is that the count covers the calls in flight. -/
theorem inFlight_feed {o : List String} {fs : List Feedback} (h : Interleaves o fs) (n : String) :
    ∀ r : Router, o.count n ≤ r.balancer.inFlight n →
      (r.feed fs).balancer.inFlight n = r.balancer.inFlight n - o.count n := by
  induction h with
  | done => intro r _; simp [feed]
  | @start o fs m t _ ih =>
    intro r hcover
    have hstep := r.balancer.inFlight_recordStart m n
    rw [← recordStart_balancer r m t] at hstep
    rw [feed]
    by_cases hn : n = m
    · -- a call of `n` starts: one more in flight, one more on the balancer
      have hcount : (m :: o).count n = o.count n + 1 := by rw [hn]; simp
      rw [if_pos hn] at hstep
      rw [hcount] at ih
      rw [ih _ (by rw [hstep]; omega), hstep]
      omega
    · have hcount : (m :: o).count n = o.count n := by simp [Ne.symm hn]
      rw [if_neg hn] at hstep
      rw [hcount] at ih
      rw [ih _ (by rw [hstep]; omega), hstep]
      omega
  | @finish o fs c t hmem _ ih =>
    intro r hcover
    have hstep := r.balancer.inFlight_recordEnd c.providerName.text n (Primitive.ofOption c.latencyMs)
    rw [← recordResult_balancer r c t] at hstep
    rw [feed]
    by_cases hn : n = c.providerName.text
    · -- a call of `n` in flight ends, so the balancer counted at least one
      have hpos : 0 < o.count n := by
        rw [hn]
        exact List.count_pos_iff.2 hmem
      have hcount : (o.erase c.providerName.text).count n = o.count n - 1 := by
        rw [List.count_erase, ← hn]
        simp
      rw [if_pos hn] at hstep
      rw [hcount] at ih
      rw [ih _ (by rw [hstep]; omega), hstep]
      omega
    · have hcount : (o.erase c.providerName.text).count n = o.count n := by
        rw [List.count_erase]
        simp [Ne.symm hn]
      rw [if_neg hn] at hstep
      rw [hcount] at ih
      rw [ih _ (by rw [hstep]; omega), hstep]

/-- **Samples over a run.** Every end adds one response time to the window of its
name, which keeps the last `latencyWindow`; starts add none. -/
theorem length_samples_feed (n : String) :
    ∀ (fs : List Feedback) (r : Router), (r.balancer.samples n).length ≤ latencyWindow →
      ((r.feed fs).balancer.samples n).length =
        min latencyWindow ((r.balancer.samples n).length + fs.countP (Feedback.ends n))
  | [], r, hw => by simp [feed, hw]
  | .start m t :: fs, r, hw => by
    rw [feed, length_samples_feed n fs _ (by rwa [recordStart_balancer, Balancer.samples_recordStart]),
      recordStart_balancer, Balancer.samples_recordStart, List.countP_cons]
    simp [Feedback.ends]
  | .finish c t :: fs, r, hw => by
    have hstep := Balancer.length_samples_recordEnd r.balancer c.providerName.text n
      (Primitive.ofOption c.latencyMs)
    rw [← recordResult_balancer r c t] at hstep
    rw [feed, List.countP_cons]
    by_cases hn : n = c.providerName.text
    · have hb : Feedback.ends n (.finish c t) = true := by simp [Feedback.ends, hn]
      rw [if_pos hn] at hstep
      rw [length_samples_feed n fs _ (by rw [hstep]; omega), hstep, if_pos hb]
      omega
    · have hb : Feedback.ends n (.finish c t) = false := by simp [Feedback.ends, Ne.symm hn]
      rw [if_neg hn] at hstep
      rw [length_samples_feed n fs _ (by rw [hstep]; exact hw), hstep, hb]
      simp

/-- **Usage records over a run.** At clock readings that are dates, from a ledger
whose totals started at dates, every report of a call that cost something adds a
usage record; the last `maxUsageRecords` are kept. -/
theorem records_feed :
    ∀ (fs : List Feedback) (r : Router), (∀ f ∈ fs, (Clock.clip? f.time).isSome) → r.ledger.Dated →
      r.ledger.records.length ≤ maxUsageRecords →
      (r.feed fs).ledger.Dated ∧ (r.feed fs).ledger.records.length =
        min maxUsageRecords (r.ledger.records.length + fs.countP Feedback.charges)
  | [], r, _, hl, hlen => by simp [feed, hl, hlen]
  | .start m t :: fs, r, hd, hl, hlen => by
    rw [feed]
    have := records_feed fs (r.recordStart m t) (fun f hf => hd f (List.mem_cons_of_mem _ hf)) hl hlen
    rw [recordStart_ledger] at this
    simpa [List.countP_cons, Feedback.charges] using this
  | .finish c t :: fs, r, hd, hl, hlen => by
    have ht : (Clock.clip? t).isSome := hd (.finish c t) List.mem_cons_self
    obtain ⟨-, hdated, hrec⟩ := recordResult_dated r c ht hl
    rw [feed]
    have := records_feed fs (r.recordResult c t).2 (fun f hf => hd f (List.mem_cons_of_mem _ hf))
      hdated (by rw [hrec]; split <;> omega)
    rw [hrec] at this
    refine ⟨this.1, ?_⟩
    rw [this.2, List.countP_cons]
    by_cases hc : charged c
    · simp only [hc, if_true, Feedback.charges]
      omega
    · simp only [hc, Bool.false_eq_true, if_false, Feedback.charges]
      omega

/-- **Balanced reports.** Once every call of an interleaving has ended, at clock
readings that are dates and from a ledger whose totals started at dates: the count
in flight of every name is back where it was; its window of response times gained
one sample per call started (the last `latencyWindow` kept); and the ledger gained
one usage record per call that cost something (the last `maxUsageRecords` kept). -/
theorem feed_balanced (r : Router) {fs : List Feedback} (h : Interleaves [] fs) (n : String)
    (hd : ∀ f ∈ fs, (Clock.clip? f.time).isSome) (hl : r.ledger.Dated)
    (hw : (r.balancer.samples n).length ≤ latencyWindow)
    (hlen : r.ledger.records.length ≤ maxUsageRecords) :
    (r.feed fs).balancer.inFlight n = r.balancer.inFlight n ∧
      ((r.feed fs).balancer.samples n).length =
        min latencyWindow ((r.balancer.samples n).length + fs.countP (Feedback.starts n)) ∧
      (r.feed fs).ledger.records.length =
        min maxUsageRecords (r.ledger.records.length + fs.countP Feedback.charges) := by
  refine ⟨?_, ?_, (records_feed fs r hd hl hlen).2⟩
  · simpa using inFlight_feed h n r (by simp)
  · rw [length_samples_feed n fs r hw, h.count_ends n]
    simp

end Router

end LaneGate
