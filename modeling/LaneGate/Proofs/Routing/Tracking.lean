import LaneGate.Routing.Balance
import LaneGate.Proofs.Breaker.Registry
/-!
# What the balancer's trackers hold

The balancer tracks, per provider name, the requests in flight and a window of recent
response times. Three calls change them: a request started under a name, a request
ended under a name after a response time, and a reset that forgets both. `Track` is
such a call and `Balancer.track` makes a sequence of them.

Names are compared by an equality that need only be symmetric and transitive
(`PartialEquivBEq`): a name may match no name at all, itself included, as a list or an
object given as a name does (`Key` is such a partial equivalence).

What the calls recorded is read off the calls alone, from those after the last reset
(`sinceReset`):

* `timesOf p cs`, the response times ended under a name matching `p`, in call order,
  of which the window keeps the last `latencyWindow` (`recentTimes`, by `lastWindow`:
  the suffix of that length, `lastWindow_suffix` and `length_lastWindow`);
* `activeOf p cs`, the count in flight: none before the first start, then one more per
  start and one fewer per end, never below zero (`Track.count`).

Main statement, `track_reports`: after any calls from a new balancer, the window, the
expected latency, the count in flight and the load figures of every name are those
read off the calls (`Tracks` is the invariant, `Tracks.apply` its step). The figures
round the window's mean, least and greatest each on its own, in doubles, so the rounded
mean need not lie between the other two: three response times of 107.85 report a mean
of 107.8 and a least of 107.9 (`rounded_mean_below_least`).
-/

namespace LaneGate

/-! ### Keyed lists under a partial equivalence -/

section Keyed

variable {κ α : Type} [BEq κ]

theorem isSome_lookup_eq_any (xs : List (κ × α)) (key : κ) :
    (lookup xs key).isSome = xs.any (·.1 == key) := by
  simp only [lookup, Option.isSome_map, List.isSome_find?]

/-- A map that keeps every key: the value found is the new value of the entry found. -/
theorem lookup_map_keys {β : Type} (xs : List (κ × α)) (g : κ → α → β) (p : κ) :
    lookup (xs.map fun kv => (kv.1, g kv.1 kv.2)) p = (xs.find? (·.1 == p)).map fun kv => g kv.1 kv.2 := by
  unfold lookup
  rw [List.find?_map, Option.map_map]
  rfl

/-- The same for a map given entry by entry. -/
theorem lookup_map_of_keys {β : Type} (xs : List (κ × α)) (g : κ × α → κ × β) (v : κ → α → β)
    (hg : ∀ k a, g (k, a) = (k, v k a)) (p : κ) :
    lookup (xs.map g) p = (xs.find? (·.1 == p)).map fun kv => v kv.1 kv.2 := by
  have hmap : xs.map g = xs.map fun kv => (kv.1, v kv.1 kv.2) :=
    List.map_congr_left fun kv _ => hg kv.1 kv.2
  rw [hmap, lookup_map_keys]

theorem lookup_append (xs ys : List (κ × α)) (p : κ) :
    lookup (xs ++ ys) p = (lookup xs p).or (lookup ys p) := by
  simp only [lookup, List.find?_append, Option.map_or]

variable [PartialEquivBEq κ]

/-- Matching keys have one value. -/
theorem lookup_congr (xs : List (κ × α)) {a b : κ} (h : a == b) : lookup xs a = lookup xs b := by
  have hpred : (fun x : κ × α => x.1 == a) = (fun x => x.1 == b) := by
    funext x
    exact BEq.congr_right h
  simp only [lookup, hpred]

/-- Changing the value of a key changes that of every matching key and of no other. -/
theorem lookup_upsert (xs : List (κ × α)) (key p : κ) (f : Option α → α) :
    lookup (upsert xs key f) p = if key == p then some (f (lookup xs p)) else lookup xs p := by
  unfold upsert
  split
  · -- every entry under a key matching `key` is changed
    next hany =>
    rw [lookup_map_of_keys xs _ (fun k v => if k == key then f (some v) else v) ?keys]
    case keys =>
      intro k v
      by_cases hk : k == key <;> simp [hk]
    cases hfound : xs.find? (·.1 == p) with
    | none =>
      have hnone : lookup xs p = none := by simp [lookup, hfound]
      split
      · -- an entry matches `key`, hence `p`: one is found
        next hkp =>
        obtain ⟨kv, hmem, hkv⟩ := List.any_eq_true.1 hany
        have : xs.any (·.1 == p) = true := List.any_eq_true.2 ⟨kv, hmem, BEq.trans hkv hkp⟩
        rw [← isSome_lookup_eq_any, hnone] at this
        contradiction
      · simp [hnone]
    | some kv =>
      have hkv : (kv.1 == p) = true := by simpa using List.find?_some hfound
      have hval : lookup xs p = some kv.2 := by simp [lookup, hfound]
      by_cases hkp : key == p
      · simp [hkp, hval, BEq.trans hkv (BEq.symm hkp)]
      · have : (kv.1 == key) = false := BEq.neq_of_beq_of_neq hkv (BEq.symm_false (by simpa using hkp))
        simp [hkp, hval, this]
  · -- no entry matches `key`: one is added at the end
    next hany =>
    unfold lookup
    rw [List.find?_append]
    by_cases hkp : key == p
    · have hnone : xs.find? (·.1 == p) = none := by
        rw [List.find?_eq_none]
        intro kv hmem hkv
        exact hany (List.any_eq_true.2 ⟨kv, hmem, BEq.trans hkv (BEq.symm hkp)⟩)
      simp [hkp, hnone]
    · cases xs.find? (·.1 == p) <;> simp [hkp]

end Keyed

/-! ### Load figures -/

namespace Balancer

variable {κ : Type} [BEq κ] [PartialEquivBEq κ]

/-- The load figures of a name: those of its count in flight, when it has one, with its
window; else those of its window alone, when it has one. -/
theorem lookup_stats (b : Balancer κ) (p : κ) :
    lookup b.stats p = match lookup b.active p with
      | some k => some (loadOf k ((lookup b.latencies p).getD []))
      | none => (lookup b.latencies p).map (loadOf 0) := by
  have hsplit : b.stats =
      (b.active.map fun nk => (nk.1, loadOf nk.2 ((lookup b.latencies nk.1).getD []))) ++
        (b.latencies.filter fun nx => !b.active.any (·.1 == nx.1)).map fun nx => (nx.1, loadOf 0 nx.2) :=
    rfl
  rw [hsplit, lookup_append, lookup_map_keys b.active (fun n k => loadOf k ((lookup b.latencies n).getD [])),
    lookup_map_keys _ (fun _ xs => loadOf 0 xs)]
  cases hfound : b.active.find? (·.1 == p) with
  | some nk =>
    have hnk : (nk.1 == p) = true := by simpa using List.find?_some hfound
    have hactive : lookup b.active p = some nk.2 := by simp [lookup, hfound]
    rw [hactive, Option.map_some, Option.some_or, lookup_congr _ hnk]
  | none =>
    have hactive : lookup b.active p = none := by simp [lookup, hfound]
    have hpass : (fun nx : κ × List Primitive =>
        decide ((!b.active.any (·.1 == nx.1)) = true ∧ (nx.1 == p) = true)) = fun nx => nx.1 == p := by
      funext nx
      by_cases hn : nx.1 == p
      · have : b.active.any (·.1 == nx.1) = false := by
          rw [← isSome_lookup_eq_any, lookup_congr _ hn, hactive]
          rfl
        simp [hn, this]
      · simp [hn]
    rw [hactive, List.find?_filter, hpass]
    simp [lookup, Option.map_map]
    rfl

@[simp] theorem latencies_recordStart (b : Balancer κ) (n : κ) :
    (b.recordStart n).latencies = b.latencies := rfl

/-- A start counts one more request in flight under every matching name. -/
theorem lookup_active_recordStart (b : Balancer κ) (n p : κ) :
    lookup (b.recordStart n).active p =
      if n == p then some ((lookup b.active p).getD 0 + 1) else lookup b.active p :=
  lookup_upsert b.active n p fun k => k.getD 0 + 1

/-- An end counts one request fewer, never below zero, under every matching name that
has a count, and gives no count to a name without one. -/
theorem lookup_active_recordEnd (b : Balancer κ) (n p : κ) (ms : Primitive) :
    lookup (b.recordEnd n ms).active p =
      if n == p then (lookup b.active p).map (· - 1) else lookup b.active p := by
  show lookup (if b.active.any (·.1 == n) then upsert b.active n fun k => k.getD 0 - 1 else b.active) p = _
  split
  · next hany =>
    rw [lookup_upsert]
    by_cases hnp : n == p
    · obtain ⟨k, hk⟩ := Option.isSome_iff_exists.1 ((isSome_lookup_eq_any b.active n).trans hany)
      rw [lookup_congr _ hnp] at hk
      simp [hnp, hk]
    · simp [hnp]
  · next hany =>
    by_cases hnp : n == p
    · have hnone : lookup b.active p = none := by
        rw [← lookup_congr _ hnp, ← Option.not_isSome_iff_eq_none, isSome_lookup_eq_any]
        exact hany
      simp [hnp, hnone]
    · simp [hnp]

end Balancer

/-! ### Calls and what they recorded -/

/-- The last `latencyWindow` items of a list. -/
def lastWindow {α : Type} (xs : List α) : List α := xs.drop (xs.length - latencyWindow)

section Window

variable {α : Type} (xs : List α)

theorem lastWindow_suffix : lastWindow xs <:+ xs := List.drop_suffix _ _

theorem length_lastWindow : (lastWindow xs).length = min xs.length latencyWindow := by
  simp only [lastWindow, List.length_drop]
  omega

theorem isEmpty_lastWindow : (lastWindow xs).isEmpty = xs.isEmpty := by
  rw [Bool.eq_iff_iff, List.isEmpty_iff, List.isEmpty_iff, ← List.length_eq_zero_iff,
    ← List.length_eq_zero_iff, length_lastWindow, latencyWindow]
  omega

/-- The window of a list one longer is the window of the old window one longer. -/
theorem lastWindow_append (x : α) : lastWindow (xs ++ [x]) = lastWindow (lastWindow xs ++ [x]) := by
  unfold lastWindow
  by_cases hshort : xs.length ≤ latencyWindow
  · rw [Nat.sub_eq_zero_of_le hshort, List.drop_zero]
  · -- a full window: one item more drops the oldest
    have hwindow : 0 < latencyWindow := by decide
    have hlong : (xs ++ [x]).length - latencyWindow = xs.length - latencyWindow + 1 := by
      rw [List.length_append, List.length_singleton]
      omega
    have hfull : (xs.drop (xs.length - latencyWindow) ++ [x]).length - latencyWindow = 1 := by
      rw [List.length_append, List.length_drop, List.length_singleton]
      omega
    have hleft : (xs ++ [x]).drop (xs.length - latencyWindow + 1) =
        xs.drop (xs.length - latencyWindow + 1) ++ [x] :=
      List.drop_append_of_le_length (by omega)
    have hright : (xs.drop (xs.length - latencyWindow) ++ [x]).drop 1 =
        (xs.drop (xs.length - latencyWindow)).drop 1 ++ [x] :=
      List.drop_append_of_le_length (by rw [List.length_drop]; omega)
    rw [hlong, hfull, hleft, hright, List.drop_drop]

end Window

namespace Balancer

variable {κ : Type}

/-- A call that changes the trackers. -/
inductive Track (κ : Type) where
  /-- A request started under a name. -/
  | start (name : κ)
  /-- A request under a name ended after a response time. -/
  | finish (name : κ) (ms : Primitive)
  /-- Every count and response time forgotten. -/
  | reset

namespace Track

/-- Whether a call is a reset. -/
def isReset : Track κ → Bool
  | .reset => true
  | _ => false

variable [BEq κ]

/-- The balancer after a call. -/
def apply (b : Balancer κ) : Track κ → Balancer κ
  | .start n => b.recordStart n
  | .finish n ms => b.recordEnd n ms
  | .reset => b.reset

/-- The response time a call records under a name matching `p`. -/
def timeFor (p : κ) : Track κ → Option Primitive
  | .finish n ms => if n == p then some ms else none
  | _ => none

/-- The count in flight under `p` after a call: a start counts one more (from none), an
end one fewer of a count there is, not below zero, and a reset forgets the count. -/
def count (p : κ) (n : Option Nat) : Track κ → Option Nat
  | .start k => if k == p then some (n.getD 0 + 1) else n
  | .finish k _ => if k == p then n.map (· - 1) else n
  | .reset => none

end Track

/-- The calls after the last reset, all of them when there is none. -/
def sinceReset (cs : List (Track κ)) : List (Track κ) :=
  (cs.reverse.takeWhile (!·.isReset)).reverse

theorem sinceReset_append (cs : List (Track κ)) (c : Track κ) :
    sinceReset (cs ++ [c]) = if c.isReset then [] else sinceReset cs ++ [c] := by
  unfold sinceReset
  rw [List.reverse_append, List.reverse_singleton, List.singleton_append, List.takeWhile_cons]
  cases c.isReset <;> simp

variable [BEq κ]

/-- The balancer after calls, in order. -/
def track (b : Balancer κ) (cs : List (Track κ)) : Balancer κ := cs.foldl Track.apply b

/-- The response times recorded under `p` since the last reset, in call order. -/
def timesOf (p : κ) (cs : List (Track κ)) : List Primitive := (sinceReset cs).filterMap (Track.timeFor p)

/-- The last `latencyWindow` response times recorded under `p` since the last reset. -/
def recentTimes (p : κ) (cs : List (Track κ)) : List Primitive := lastWindow (timesOf p cs)

/-- The count in flight under `p`: none before the first start since the last reset. -/
def activeOf (p : κ) (cs : List (Track κ)) : Option Nat := (sinceReset cs).foldl (Track.count p) none

theorem timesOf_append (p : κ) (cs : List (Track κ)) (c : Track κ) :
    timesOf p (cs ++ [c]) = if c.isReset then [] else timesOf p cs ++ (c.timeFor p).toList := by
  unfold timesOf
  rw [sinceReset_append]
  split
  · rfl
  · rw [List.filterMap_append]
    cases h : c.timeFor p <;> simp [h]

theorem activeOf_append (p : κ) (cs : List (Track κ)) (c : Track κ) :
    activeOf p (cs ++ [c]) = if c.isReset then none else Track.count p (activeOf p cs) c := by
  unfold activeOf
  rw [sinceReset_append]
  split
  · rfl
  · rw [List.foldl_append, List.foldl_cons, List.foldl_nil]

/-- The trackers of `b` hold what the calls `cs` recorded since the last reset: under
each name the last `latencyWindow` response times, when there are any, and the count in
flight. -/
structure Tracks (b : Balancer κ) (cs : List (Track κ)) : Prop where
  latencies : ∀ p, lookup b.latencies p = if (timesOf p cs).isEmpty then none else some (recentTimes p cs)
  active : ∀ p, lookup b.active p = activeOf p cs

theorem Tracks.window {b : Balancer κ} {cs : List (Track κ)} (h : Tracks b cs) (p : κ) :
    (lookup b.latencies p).getD [] = recentTimes p cs := by
  rw [h.latencies]
  split
  · next hempty =>
    rw [recentTimes, List.isEmpty_iff.1 hempty]
    rfl
  · rfl

/-- A balancer that tracks nothing holds what no call recorded. -/
theorem tracks_nil {b : Balancer κ} (ha : b.active = []) (hl : b.latencies = []) : Tracks b [] :=
  ⟨fun p => by simp [hl, lookup, timesOf, sinceReset], fun p => by simp [ha, lookup, activeOf, sinceReset]⟩

variable [PartialEquivBEq κ]

/-- One call keeps the trackers in step with the calls. -/
theorem Tracks.apply {b : Balancer κ} {cs : List (Track κ)} (h : Tracks b cs) (c : Track κ) :
    Tracks (Track.apply b c) (cs ++ [c]) := by
  cases c with
  | start n =>
    refine ⟨fun p => ?_, fun p => ?_⟩
    · simpa [Track.apply, timesOf_append, Track.isReset, Track.timeFor, recentTimes] using h.latencies p
    · rw [activeOf_append, ← h.active p]
      exact lookup_active_recordStart b n p
  | finish n ms =>
    refine ⟨fun p => ?_, fun p => ?_⟩
    · -- the window of a matching name takes the response time
      show lookup (upsert b.latencies n fun xs => lastWindow (xs.getD [] ++ [ms])) p = _
      rw [lookup_upsert, recentTimes, timesOf_append]
      by_cases hnp : n == p
      · simp [hnp, Track.isReset, Track.timeFor, h.window p, recentTimes, ← lastWindow_append]
      · simp [hnp, Track.isReset, Track.timeFor, h.latencies p, recentTimes]
    · rw [activeOf_append, ← h.active p]
      exact lookup_active_recordEnd b n p ms
  | reset =>
    refine ⟨fun p => ?_, fun p => ?_⟩
    · simp [timesOf_append, Track.isReset, Track.apply, reset, lookup]
    · simp [activeOf_append, Track.isReset, Track.apply, reset, lookup]

/-- Calls keep the trackers in step, one after another. -/
theorem Tracks.track {b : Balancer κ} {cs₀ : List (Track κ)} (h : Tracks b cs₀) (cs : List (Track κ)) :
    Tracks (Balancer.track b cs) (cs₀ ++ cs) := by
  induction cs generalizing b cs₀ with
  | nil => simpa [Balancer.track] using h
  | cons c cs ih =>
    have := ih (h.apply c)
    rwa [List.append_assoc, List.singleton_append] at this

/-- The expected latency of a provider is the mean of its window, or its configured
average when the window is empty. -/
theorem Tracks.expectedLatency_eq {b : Balancer κ} {cs : List (Track κ)} (h : Tracks b cs)
    (c : Candidate κ) :
    b.expectedLatency c =
      if (recentTimes c.name cs).isEmpty then c.avgLatencyMs
      else some (.num (mean (recentTimes c.name cs))) := by
  unfold Balancer.expectedLatency
  rw [h.latencies]
  cases hw : recentTimes c.name cs with
  | nil =>
    have hempty : (timesOf c.name cs).isEmpty = true := by
      rw [← isEmpty_lastWindow, ← recentTimes, hw]
      rfl
    simp [hempty]
  | cons x xs =>
    have hfull : (timesOf c.name cs).isEmpty = false := by
      rw [← isEmpty_lastWindow, ← recentTimes, hw]
      rfl
    simp [hfull]

/-- A name has load figures exactly when it has a count in flight or a response time
since the last reset: those of the count (zero with none) and of the window. -/
theorem Tracks.lookup_stats {b : Balancer κ} {cs : List (Track κ)} (h : Tracks b cs) (p : κ) :
    lookup b.stats p =
      if (activeOf p cs).isNone && (timesOf p cs).isEmpty then none
      else some (loadOf ((activeOf p cs).getD 0) (recentTimes p cs)) := by
  rw [Balancer.lookup_stats, h.active, h.window]
  cases activeOf p cs with
  | some k => rfl
  | none =>
    rw [h.latencies]
    by_cases hempty : (timesOf p cs).isEmpty <;> simp [hempty]

/-- What a new balancer reports after any calls, under the name of a provider `c`: its
window holds the last `latencyWindow` response times recorded under the name since the
last reset, in call order (none at all with no response time); its expected latency is
their mean, or its configured average with none; its count in flight is `activeOf`; and
its load figures, present exactly when it has a count or a response time, are those of
that count (zero with none) and that window. -/
theorem track_reports (d : Draws) (cs : List (Track κ)) (c : Candidate κ) :
    let b := track ({ draws := d } : Balancer κ) cs
    let times := timesOf c.name cs
    let window := recentTimes c.name cs
    window <:+ times ∧ window.length = min times.length latencyWindow ∧
      lookup b.latencies c.name = (if times.isEmpty then none else some window) ∧
      b.expectedLatency c = (if window.isEmpty then c.avgLatencyMs else some (.num (mean window))) ∧
      lookup b.active c.name = activeOf c.name cs ∧
      lookup b.stats c.name =
        if (activeOf c.name cs).isNone && times.isEmpty then none
        else some (loadOf ((activeOf c.name cs).getD 0) window) := by
  have h : Tracks (track ({ draws := d } : Balancer κ) cs) cs := by
    simpa using (tracks_nil (b := ({ draws := d } : Balancer κ)) rfl rfl).track cs
  exact ⟨lastWindow_suffix _, length_lastWindow _, h.latencies _, h.expectedLatency_eq c, h.active _,
    h.lookup_stats _⟩

/-- A provider's request ends once, the balancer is reset, and its next request ends
while another provider's does: what is reported under its name counts from the reset. -/
theorem track_reports_after_reset :
    let cs : List (Track Key) := [.start (.ofString "alpha"), .finish (.ofString "alpha") (.num 120),
      .reset, .start (.ofString "alpha"), .finish (.ofString "alpha") (.num 80),
      .finish (.ofString "beta") (.num 5)]
    let c : Candidate Key := ⟨.ofString "alpha", 1, none⟩
    let b := track ({ draws := {} } : Balancer Key) cs
    let times := timesOf c.name cs
    let window := recentTimes c.name cs
    window <:+ times ∧ window.length = min times.length latencyWindow ∧
      lookup b.latencies c.name = (if times.isEmpty then none else some window) ∧
      b.expectedLatency c = (if window.isEmpty then c.avgLatencyMs else some (.num (mean window))) ∧
      lookup b.active c.name = activeOf c.name cs ∧
      lookup b.stats c.name =
        if (activeOf c.name cs).isNone && times.isEmpty then none
        else some (loadOf ((activeOf c.name cs).getD 0) window) :=
  track_reports {} _ _

end Balancer

/-- Three response times of 107.85 ms: the window's mean, added up and divided in doubles,
is just below 107.85 and rounds to 107.8, while the least rounds to 107.9. -/
theorem rounded_mean_below_least :
    ∃ s, lookup (Balancer.track ({} : Balancer String)
        (List.replicate 3 (.finish "alpha" (.num 107.85)))).stats "alpha" = some s ∧
      ¬ s.minResponseTimeMs ≤ s.avgResponseTimeMs :=
  ⟨Balancer.loadOf 0 (List.replicate 3 (.num 107.85)), rfl, by set_option maxRecDepth 2048 in decide⟩

end LaneGate
