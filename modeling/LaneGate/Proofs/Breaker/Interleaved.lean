import LaneGate.Proofs.Breaker.Sequential
/-!
# Calls in flight: the breaker under any interleaving

A call through a breaker is two atomic steps, its admission and, later, its
completion; between them any number of other steps may come: other calls' admissions
and completions, resets, looks at the state. `Action` is such a step and
`Breaker.actAll` runs a list of them, keeping each step's answer.

## What is proved

* `Breaker.counters_sound`: in every state reached by any interleaving, the two
  streaks are never both running, every completed call is a success or a counted
  failure, the successes, counted failures and refusals are exactly those of the run,
  and a closed breaker is below its failure threshold provided that every counted
  failure completed at a clock reading that is a date, with a fault that has a text;
  whatever the sink does.
* `Breaker.closed_at_failed_recording`: without that proviso the last part fails: a
  counted failure at a reading that is no date, or with no text, is counted, and the
  breaker stays closed at its threshold.
* `Breaker.recentSuccesses_of_close`: a half-open breaker closes only when the
  successful completions since the last counted failure or reset reach the success
  threshold, wherever those calls were admitted and whatever the state they ended in.
* `Breaker.close_without_fresh_successes`: so the successes since the breaker became
  half-open may fall short: a success that ends while the breaker is open, from a call
  let through before it opened, counts toward closing it; and a counted failure at a
  reading that is no date, or with no text, clears the streak without reopening the
  breaker.

## Honest scope

A completion is not tied to an earlier admission here: the invariants hold of every
list of steps, also of lists no program could produce.
-/

namespace LaneGate.Breaker

/-- One atomic step of a breaker that calls in flight share. -/
inductive Action where
  /-- A call asks to be let through. -/
  | ask (now : Float)
  /-- A call that was let through ends with a value or a fault. -/
  | complete (outcome : Except Fault Unit) (now : Float)
  /-- A manual reset. -/
  | reset (now : Float)
  /-- A look at the breaker. -/
  | look (kind : Look) (now : Float)

namespace Action

/-- When a step happens. -/
def time : Action → Float
  | .ask t | .complete _ t | .reset t | .look _ t => t

/-- Whether a step is the end of a successful call. -/
def isSuccess : Action → Bool
  | .complete (.ok _) _ => true
  | _ => false

/-- Whether a step, if it ends a call with a fault, ends it with one that has a text. -/
def described : Action → Bool
  | .complete (.error f) _ => f.hasText
  | _ => true

/-- Whether a step is the end of a call with a fault the policy counts. -/
def isCountedFailure (p : FailurePolicy) : Action → Bool
  | .complete (.error f) _ => p.counts f
  | _ => false

/-- The successful completions since the last counted failure or reset, after one more
step, from `n` before it. -/
def freshAfter (p : FailurePolicy) (n : Nat) : Action → Nat
  | .complete (.ok _) _ => n + 1
  | .complete (.error f) _ => if p.counts f then 0 else n
  | .reset _ => 0
  | _ => n

end Action

/-- Whether a step with its answer is an admission refused with `CircuitOpenError`. -/
def refused : Action × Except Fault Unit → Bool
  | (.ask _, .error (.circuitOpen ..)) => true
  | _ => false

/-- The successful completions of a run since its last counted failure or reset,
wherever those calls were admitted. -/
def recentSuccesses (p : FailurePolicy) (as : List Action) : Nat :=
  as.foldl (Action.freshAfter p) 0

namespace Breaker

/-- One atomic step of a breaker whose events go to `sink`: its answer and the breaker
after it. An admission and a completion answer as `allow` and `complete` do; a reset
and a look answer whether something got out of the sink (or, for a snapshot, whether
it could be taken). -/
def act (b : Breaker) (sink : Sink) : Action → Except Fault Unit × Breaker
  | .ask t => let s := b.allow t sink; (s.value, s.breaker)
  | .complete o t => let s := b.complete t o sink; (s.value, s.breaker)
  | .reset t => (sink.escape (b.reset t).2, (b.reset t).1)
  | .look .state t => let s := (b.readState t).through sink; (s.value.map fun _ => (), s.breaker)
  | .look .remaining t => let s := (b.remainingMs t).through sink; (s.value.map fun _ => (), s.breaker)
  | .look .snapshot t => let s := b.snapshot t sink; (s.value.map fun _ => (), s.breaker)

/-- A run of steps: each step with its answer, in order, and the breaker after the
last. -/
def actAll (b : Breaker) (sink : Sink) : List Action → List (Action × Except Fault Unit) × Breaker
  | [] => ([], b)
  | a :: as =>
    let (r, b') := b.act sink a
    let (h, b'') := b'.actAll sink as
    ((a, r) :: h, b'')

/-! ### One step -/

section sink

variable (sink : Sink)

theorem actAll_cons (b : Breaker) (a : Action) (as : List Action) :
    b.actAll sink (a :: as) =
      ((a, (b.act sink a).1) :: ((b.act sink a).2.actAll sink as).1,
        ((b.act sink a).2.actAll sink as).2) := rfl

/-- A look leaves the breaker as its settling does. -/
theorem act_look (b : Breaker) (kind : Look) (t : Float) :
    (b.act sink (.look kind t)).2 = (b.settle t).1 := by
  cases kind <;> rfl

@[simp] theorem act_config (b : Breaker) (a : Action) : (b.act sink a).2.config = b.config := by
  cases a with
  | ask t => exact allow_config b t sink
  | complete o t =>
    cases o with
    | ok u => exact succeed_config b t sink
    | error f => exact fail_config b t sink f
  | reset t => exact reset_config b t
  | look kind t => rw [act_look]; exact settle_config b t

/-- **What one step does to the counters**: an admission refused by an open breaker
counts a refusal; a success counts a completed call and a success, clears the failure
streak and lengthens the success streak (cleared too if the breaker closes and
nothing gets out of the sink); a counted failure counts a completed call and a
failure, lengthens the failure streak and clears the success streak; a reset clears
both streaks; anything else changes no counter. -/
theorem act_counters (b : Breaker) (a : Action) :
    (b.act sink a).2.stats.counters =
      match a with
      | .ask t =>
        if (sink.escape (b.settle t).2).isOk ∧ (b.settle t).1.state = .opened then
          { b.stats.counters with rejectedCalls := b.stats.rejectedCalls + 1 }
        else b.stats.counters
      | .complete (.ok _) t =>
        { b.stats.counters with
          totalCalls := b.stats.totalCalls + 1
          successfulCalls := b.stats.successfulCalls + 1
          consecutiveFailures := 0
          consecutiveSuccesses :=
            if b.ClosesOnSuccess t ∧ (sink.escape (b.succeed t).events).isOk then 0
            else b.stats.consecutiveSuccesses + 1 }
      | .complete (.error f) _ =>
        if b.config.policy.counts f then
          { b.stats.counters with
            totalCalls := b.stats.totalCalls + 1
            failedCalls := b.stats.failedCalls + 1
            consecutiveFailures := b.stats.consecutiveFailures + 1
            consecutiveSuccesses := 0 }
        else b.stats.counters
      | .reset _ => { b.stats.counters with consecutiveFailures := 0, consecutiveSuccesses := 0 }
      | .look _ _ => b.stats.counters := by
  cases a with
  | ask t => exact allow_counters b t sink
  | complete o t =>
    cases o with
    | ok u => exact succeed_counters b t sink
    | error f =>
      dsimp only [act]
      rw [complete_error, fail_eq]
      by_cases hf : b.config.policy.counts f = true
      · rw [if_pos hf, if_pos hf]
        exact recordFailure_counters b t sink f
      · rw [if_neg hf, if_neg hf]
  | reset t => exact reset_counters b t
  | look kind t => rw [act_look]; exact settle_counters b t

/-- The state after one step: only a look or an admission (which may find an open
breaker recovered), a completion and a reset can change it. -/
theorem act_state_of_closed (b : Breaker) (a : Action) (h : (b.act sink a).2.state = .closed) :
    b.state = .closed ∨ a.isSuccess = true ∨ ∃ t, a = .reset t := by
  cases a with
  | ask t =>
    left
    have hs : (b.settle t).1.state = .closed := by simpa [act] using h
    rw [settle_state] at hs
    split at hs
    · cases hs
    · exact hs
  | complete o t =>
    cases o with
    | ok u => exact .inr (.inl rfl)
    | error f =>
      left
      have hs : (b.fail t f sink).breaker.state = .closed := h
      rw [fail_eq] at hs
      split at hs
      · rw [recordFailure_state] at hs
        split at hs
        · cases hs
        · exact hs
      · exact hs
  | reset t => exact .inr (.inr ⟨t, rfl⟩)
  | look kind t =>
    left
    have hs : (b.settle t).1.state = .closed := by rw [← act_look sink b kind]; exact h
    rw [settle_state] at hs
    split at hs
    · cases hs
    · exact hs

/-! ### The counters along a run -/

/-- The counters agree with each other: the two streaks never run at once, and every
completed call is a success or a counted failure. -/
structure Balanced (b : Breaker) : Prop where
  streaks : b.stats.consecutiveFailures = 0 ∨ b.stats.consecutiveSuccesses = 0
  total : b.stats.totalCalls = b.stats.successfulCalls + b.stats.failedCalls

/-- The counters of a breaker, field by field, from `Stats.counters`. -/
private theorem stats_of_counters {b : Breaker} {k : Counters} (h : b.stats.counters = k) :
    b.stats.totalCalls = k.totalCalls ∧ b.stats.successfulCalls = k.successfulCalls ∧
      b.stats.failedCalls = k.failedCalls ∧ b.stats.rejectedCalls = k.rejectedCalls ∧
      b.stats.consecutiveFailures = k.consecutiveFailures ∧
      b.stats.consecutiveSuccesses = k.consecutiveSuccesses := by
  subst h
  exact ⟨rfl, rfl, rfl, rfl, rfl, rfl⟩

/-- Every step keeps the counters balanced. -/
theorem Balanced.act {b : Breaker} (h : b.Balanced) (a : Action) : (b.act sink a).2.Balanced := by
  obtain ⟨h1, h2, h3, -, h5, h6⟩ := stats_of_counters (act_counters sink b a)
  obtain ⟨hs, ht⟩ := h
  constructor
  · rw [h5, h6]
    cases a with
    | ask t => dsimp only [Stats.counters]; split <;> exact hs
    | complete o t =>
      cases o with
      | ok u => exact .inl rfl
      | error f => dsimp only [Stats.counters]; split <;> simp_all
    | reset t => exact .inl rfl
    | look kind t => exact hs
  · rw [h1, h2, h3]
    cases a with
    | ask t => dsimp only [Stats.counters]; split <;> exact ht
    | complete o t =>
      cases o with
      | ok u => dsimp only [Stats.counters]; omega
      | error f => dsimp only [Stats.counters]; split <;> dsimp only <;> omega
    | reset t => exact ht
    | look kind t => exact ht

/-- A step counts a success exactly when it is the end of a successful call. -/
theorem act_successfulCalls (b : Breaker) (a : Action) :
    (b.act sink a).2.stats.successfulCalls =
      b.stats.successfulCalls + if a.isSuccess then 1 else 0 := by
  obtain ⟨-, h2, -⟩ := stats_of_counters (act_counters sink b a)
  rw [h2]
  cases a with
  | ask t => dsimp only [Stats.counters]; split <;> simp [Action.isSuccess]
  | complete o t =>
    cases o with
    | ok u => simp [Action.isSuccess]
    | error f => dsimp only [Stats.counters]; split <;> simp [Action.isSuccess]
  | reset t => simp [Action.isSuccess]
  | look kind t => simp [Action.isSuccess]

/-- A step counts a failure exactly when it is the end of a call with a counted fault. -/
theorem act_failedCalls (b : Breaker) (a : Action) :
    (b.act sink a).2.stats.failedCalls =
      b.stats.failedCalls + if a.isCountedFailure b.config.policy then 1 else 0 := by
  obtain ⟨-, -, h3, -⟩ := stats_of_counters (act_counters sink b a)
  rw [h3]
  cases a with
  | ask t => dsimp only [Stats.counters]; split <;> simp [Action.isCountedFailure]
  | complete o t =>
    cases o with
    | ok u => simp [Action.isCountedFailure]
    | error f => dsimp only [Stats.counters]; split <;> simp_all [Action.isCountedFailure]
  | reset t => simp [Action.isCountedFailure]
  | look kind t => simp [Action.isCountedFailure]

/-- A step counts a refusal exactly when it is an admission answered with
`CircuitOpenError`: what gets out of the sink is a `TypeError`, never a refusal. -/
theorem act_rejectedCalls (b : Breaker) (a : Action) :
    (b.act sink a).2.stats.rejectedCalls =
      b.stats.rejectedCalls + if refused (a, (b.act sink a).1) then 1 else 0 := by
  obtain ⟨-, -, -, h4, -⟩ := stats_of_counters (act_counters sink b a)
  rw [h4]
  clear h4
  cases a with
  | ask t =>
    simp only [act, allow_value]
    cases he : sink.escape (b.settle t).2 with
    | error f =>
      rw [Sink.eq_wrongType_of_escape he]
      simp [refused, Except.isOk, Except.toBool]
    | ok u => split <;> simp_all [refused, Except.isOk, Except.toBool]
  | complete o t =>
    cases o with
    | ok u => simp [refused]
    | error f => dsimp only [Stats.counters]; split <;> simp [refused]
  | reset t => simp [refused]
  | look kind t => simp [refused]

/-- A closed breaker is below its failure threshold. -/
def Below (b : Breaker) : Prop :=
  b.state = .closed → b.stats.consecutiveFailures < b.config.failureThreshold

/-- A closed breaker below its failure threshold stays so through a step, unless the
step is a counted failure at a reading that is no date or with no text. -/
theorem Below.act {b : Breaker} (h : b.Below) (a : Action)
    (hd : a.isCountedFailure b.config.policy = true → isDate a.time = true ∧ a.described = true) :
    (b.act sink a).2.Below := by
  intro hc
  rw [act_config]
  obtain ⟨-, -, -, -, h5, -⟩ := stats_of_counters (act_counters sink b a)
  rw [h5]
  have hpos := b.config.failureThreshold_pos
  cases a with
  | ask t =>
    have hs : b.state = .closed :=
      (act_state_of_closed sink b _ hc).resolve_right (by simp [Action.isSuccess])
    dsimp only
    split <;> exact h hs
  | complete o t =>
    cases o with
    | ok u => simpa using hpos
    | error f =>
      dsimp only
      by_cases hf : b.config.policy.counts f = true
      · rw [if_pos hf]
        dsimp only
        obtain ⟨ht, htext⟩ := hd (by simpa [Action.isCountedFailure] using hf)
        have hs : (b.recordFailure t f sink).breaker.state = .closed := by
          simpa [Breaker.act, complete_error, fail_eq, hf] using hc
        rw [recordFailure_state] at hs
        split at hs
        · cases hs
        · next hno =>
          simp only [Action.described] at htext
          have hth : ¬ b.config.failureThreshold ≤ b.stats.consecutiveFailures + 1 :=
            fun hle => hno ⟨⟨ht, .inr ⟨hs, hle⟩⟩, htext⟩
          omega
      · rw [if_neg hf]
        have hs : b.state = .closed := by simpa [Breaker.act, complete_error, fail_eq, hf] using hc
        exact h hs
  | reset t => simpa using hpos
  | look kind t =>
    have hs : b.state = .closed :=
      (act_state_of_closed sink b _ hc).resolve_right (by simp [Action.isSuccess])
    exact h hs

/-! ### Whole runs

Each run lemma is an induction on the list of steps, the breaker generalized, from the
step lemma above. -/

@[simp] theorem actAll_config (b : Breaker) (as : List Action) :
    (b.actAll sink as).2.config = b.config := by
  induction as generalizing b with
  | nil => rfl
  | cons a as ih => rw [actAll_cons, ih, act_config]

theorem Balanced.actAll {b : Breaker} (h : b.Balanced) (as : List Action) :
    (b.actAll sink as).2.Balanced := by
  induction as generalizing b with
  | nil => exact h
  | cons a as ih => rw [actAll_cons]; exact ih (h.act sink a)

theorem actAll_successfulCalls (b : Breaker) (as : List Action) :
    (b.actAll sink as).2.stats.successfulCalls =
      b.stats.successfulCalls + as.countP Action.isSuccess := by
  induction as generalizing b with
  | nil => rfl
  | cons a as ih =>
    rw [actAll_cons, ih, act_successfulCalls, List.countP_cons]
    omega

theorem actAll_failedCalls (b : Breaker) (as : List Action) :
    (b.actAll sink as).2.stats.failedCalls =
      b.stats.failedCalls + as.countP (Action.isCountedFailure b.config.policy) := by
  induction as generalizing b with
  | nil => rfl
  | cons a as ih =>
    rw [actAll_cons, ih, act_failedCalls, act_config, List.countP_cons]
    omega

theorem actAll_rejectedCalls (b : Breaker) (as : List Action) :
    (b.actAll sink as).2.stats.rejectedCalls =
      b.stats.rejectedCalls + (b.actAll sink as).1.countP refused := by
  induction as generalizing b with
  | nil => rfl
  | cons a as ih =>
    rw [actAll_cons, ih, act_rejectedCalls, List.countP_cons]
    omega

theorem Below.actAll {b : Breaker} (h : b.Below) (as : List Action)
    (hd : ∀ a ∈ as, a.isCountedFailure b.config.policy = true →
      isDate a.time = true ∧ a.described = true) :
    (b.actAll sink as).2.Below := by
  induction as generalizing b with
  | nil => exact h
  | cons a as ih =>
    rw [actAll_cons]
    have hstep : (b.act sink a).2.Below := h.act sink a (hd a (List.mem_cons_self ..))
    refine ih hstep fun a' ha' => ?_
    rw [act_config]
    exact hd a' (List.mem_cons_of_mem a ha')

end sink

/-- **The counters under any interleaving.** From a new breaker, whatever its sink
does, after any steps: the two streaks are never both running; every completed call
is a success or a counted failure; the successes, the counted failures and the
refusals are exactly those of the run; and a closed breaker is below its failure
threshold, provided that every counted failure completed at a clock reading that is a
date, with a fault that has a text. -/
theorem counters_sound (c : Config) (t₀ : Float) (sink : Sink) (as : List Action) :
    let r := (create c t₀).actAll sink as
    (r.2.stats.consecutiveFailures = 0 ∨ r.2.stats.consecutiveSuccesses = 0) ∧
      r.2.stats.totalCalls = r.2.stats.successfulCalls + r.2.stats.failedCalls ∧
      r.2.stats.successfulCalls = as.countP Action.isSuccess ∧
      r.2.stats.failedCalls = as.countP (Action.isCountedFailure c.policy) ∧
      r.2.stats.rejectedCalls = r.1.countP refused ∧
      ((∀ a ∈ as, a.isCountedFailure c.policy = true → isDate a.time = true ∧ a.described = true) →
        r.2.state = .closed → r.2.stats.consecutiveFailures < c.failureThreshold) := by
  intro r
  have hB : (create c t₀).Balanced := ⟨.inl rfl, rfl⟩
  have hL : (create c t₀).Below := fun _ => c.failureThreshold_pos
  obtain ⟨hs, ht⟩ := hB.actAll sink as
  refine ⟨hs, ht, ?_, ?_, ?_, fun hd => ?_⟩
  · exact (actAll_successfulCalls sink (create c t₀) as).trans (Nat.zero_add _)
  · exact (actAll_failedCalls sink (create c t₀) as).trans (Nat.zero_add _)
  · exact (actAll_rejectedCalls sink (create c t₀) as).trans (Nat.zero_add _)
  · have hbelow := hL.actAll sink as hd
    rwa [Below, actAll_config] at hbelow

/-- The counters after two calls in flight at once, with a sink that throws on every
event: both let through, then both fail; the breaker opens at the first failure, and
the second failure ends while it is open. -/
theorem counters_sound_two_in_flight :
    let c : Config := ⟨none, 1, 1, 100, .standard, by decide, by decide⟩
    let boom : Except Fault Unit := .error (.plain (Text.ofString "down"))
    let as := [Action.ask 1773144000000, .ask 1773144000000, .complete boom 1773144000000,
      .complete boom 1773144000001]
    let r := (create c 1773144000000).actAll .failing as
    r.2.state = .opened ∧ r.2.stats.failedCalls = 2 ∧ r.2.stats.consecutiveFailures = 2 ∧
      ((∀ a ∈ as, a.isCountedFailure c.policy = true → isDate a.time = true ∧ a.described = true) →
        r.2.state = .closed → r.2.stats.consecutiveFailures < c.failureThreshold) :=
  ⟨by decide, by decide, by decide,
    (counters_sound ⟨none, 1, 1, 100, .standard, by decide, by decide⟩ 1773144000000 .failing
      _).2.2.2.2.2⟩

/-- Without the proviso the threshold part fails: a counted failure is counted before
the breaker writes it down, and a failure that completes at a clock reading past the
last date, or whose value has no text, ends the writing there; the breaker stays
closed at its threshold. -/
theorem closed_at_failed_recording :
    (let c : Config := ⟨none, 1, 1, 100, .standard, by decide, by decide⟩
     let r := (create c 8640000000000000).actAll .quiet
       [.ask 8640000000000001, .complete (.error (.plain (Text.ofString "down"))) 8640000000000001]
     r.2.state = .closed ∧ r.2.stats.consecutiveFailures = c.failureThreshold) ∧
    (let c : Config := ⟨none, 1, 1, 100, .standard, by decide, by decide⟩
     let r := (create c 1773144000000).actAll .quiet
       [.ask 1773144000000, .complete (.error .textless) 1773144000000]
     r.2.state = .closed ∧ r.2.stats.consecutiveFailures = c.failureThreshold) := by
  decide

/-! ### What closes a half-open breaker -/

/-- The success streak never runs ahead of the successes since the last counted
failure or reset: a step lengthens it only by a success, and a counted failure or a
reset clears it. -/
theorem act_consecutiveSuccesses_le (sink : Sink) (b : Breaker) (a : Action) {n : Nat}
    (h : b.stats.consecutiveSuccesses ≤ n) :
    (b.act sink a).2.stats.consecutiveSuccesses ≤ a.freshAfter b.config.policy n := by
  obtain ⟨-, -, -, -, -, h6⟩ := stats_of_counters (act_counters sink b a)
  rw [h6]
  cases a with
  | ask t => dsimp only [Stats.counters]; split <;> exact h
  | complete o t =>
    cases o with
    | ok u => dsimp only [Stats.counters, Action.freshAfter]; split <;> omega
    | error f =>
      dsimp only [Stats.counters, Action.freshAfter]
      split <;> dsimp only <;> omega
  | reset t => exact Nat.zero_le _
  | look kind t => exact h

theorem actAll_consecutiveSuccesses_le (sink : Sink) (b : Breaker) (as : List Action) {n : Nat}
    (h : b.stats.consecutiveSuccesses ≤ n) :
    (b.actAll sink as).2.stats.consecutiveSuccesses ≤
      as.foldl (Action.freshAfter b.config.policy) n := by
  induction as generalizing b n with
  | nil => exact h
  | cons a as ih =>
    rw [actAll_cons, List.foldl_cons]
    have hrest := ih _ (act_consecutiveSuccesses_le sink b a h)
    rwa [act_config] at hrest

/-- A half-open breaker is closed by a step other than a reset only when the step is a
success that brings the success streak to the threshold. -/
theorem closes_of_halfOpen (sink : Sink) (b : Breaker) (a : Action) (hr : ∀ t, a ≠ .reset t)
    (hh : b.state = .halfOpen) (hc : (b.act sink a).2.state = .closed) :
    a.isSuccess = true ∧ b.config.successThreshold ≤ b.stats.consecutiveSuccesses + 1 := by
  have settled (t : Float) : (b.settle t).1.state ≠ .closed := by
    rw [settle_state]
    split <;> simp [hh]
  cases a with
  | ask t =>
    have hs : (b.allow t sink).breaker.state = .closed := hc
    rw [allow_state] at hs
    exact absurd hs (settled t)
  | complete o t =>
    cases o with
    | ok u =>
      have hs : (b.succeed t sink).breaker.state = .closed := hc
      rw [succeed_state] at hs
      split at hs
      · next hcl => exact ⟨rfl, hcl.2.2⟩
      · simp [hh] at hs
    | error f =>
      have hs : (b.fail t f sink).breaker.state = .closed := hc
      rw [fail_eq] at hs
      split at hs
      · rw [recordFailure_state] at hs
        split at hs <;> simp [hh] at hs
      · simp [hh] at hs
  | reset t => exact absurd rfl (hr t)
  | look kind t => exact absurd (by rw [← act_look sink b kind]; exact hc) (settled t)

/-- **What closes a half-open breaker**, under any interleaving and whatever the sink
does: from a new breaker, whenever a step other than a reset takes a half-open breaker
to closed, that step is a success and the successful completions since the last
counted failure or reset, that one included, reach the success threshold. They need
not have ended while the breaker was half-open. -/
theorem recentSuccesses_of_close (c : Config) (t₀ : Float) (sink : Sink) (as : List Action)
    (a : Action) (hr : ∀ t, a ≠ .reset t)
    (hh : ((create c t₀).actAll sink as).2.state = .halfOpen)
    (hc : (((create c t₀).actAll sink as).2.act sink a).2.state = .closed) :
    a.isSuccess = true ∧ c.successThreshold ≤ recentSuccesses c.policy (as ++ [a]) := by
  obtain ⟨hs, hS⟩ := closes_of_halfOpen sink _ a hr hh hc
  have hrun : ((create c t₀).actAll sink as).2.stats.consecutiveSuccesses ≤
      recentSuccesses c.policy as :=
    actAll_consecutiveSuccesses_le sink (create c t₀) as (Nat.zero_le 0)
  have hlast : recentSuccesses c.policy (as ++ [a]) = recentSuccesses c.policy as + 1 := by
    cases a with
    | complete o t =>
      cases o with
      | ok u => simp [recentSuccesses, Action.freshAfter]
      | error f => simp [Action.isSuccess] at hs
    | _ => simp [Action.isSuccess] at hs
  rw [actAll_config] at hS
  refine ⟨hs, ?_⟩
  calc c.successThreshold ≤ ((create c t₀).actAll sink as).2.stats.consecutiveSuccesses + 1 := hS
    _ ≤ recentSuccesses c.policy as + 1 := Nat.succ_le_succ hrun
    _ = recentSuccesses c.policy (as ++ [a]) := hlast.symm

/-- A breaker trips at its one allowed failure, recovers, and closes at the second of
two successes. -/
theorem recentSuccesses_of_close_after_recovery :
    let c : Config := ⟨none, 1, 2, 100, .standard, by decide, by decide⟩
    let as := [Action.ask 1773144000000, .complete (.error (.plain (Text.ofString "down"))) 1773144000000,
      .look .state 1773144000100, .ask 1773144000100, .complete (.ok ()) 1773144000100,
      .ask 1773144000100]
    let a := Action.complete (.ok ()) 1773144000100
    (∀ t, a ≠ .reset t) ∧ ((create c 1773144000000).actAll .quiet as).2.state = .halfOpen ∧
      (((create c 1773144000000).actAll .quiet as).2.act .quiet a).2.state = .closed ∧
      (a.isSuccess = true ∧ c.successThreshold ≤ recentSuccesses c.policy (as ++ [a])) :=
  have hr : ∀ t, Action.complete (.ok ()) 1773144000100 ≠ .reset t := fun _ h => by cases h
  ⟨hr, by decide, by decide,
    recentSuccesses_of_close _ 1773144000000 .quiet _ _ hr (by decide) (by decide)⟩

/-- **A close with too few fresh successes.** Three runs in which a half-open breaker
closes though fewer than the success threshold of successes, and no counted failure,
came since it became half-open.

* Two calls are let through together; the first fails and opens the breaker (one
  failure allowed), the second succeeds while it is open. Once recovered, a single
  success closes it, though two are needed: the stale success counted.
* Near the last date, a half-open breaker meets a counted failure at a reading past
  it: the failure is counted but cannot reopen the breaker, and once the clock reads a
  date again, one success closes it.
* A half-open breaker meets a counted failure whose value has no text: the failure is
  counted, writing it down throws before the breaker reopens, and one success closes
  it. -/
theorem close_without_fresh_successes :
    (let c : Config := ⟨none, 1, 2, 100, .standard, by decide, by decide⟩
     let boom : Except Fault Unit := .error (.plain (Text.ofString "down"))
     let tripped := (create c 1773144000000).actAll .quiet
       [.ask 1773144000000, .ask 1773144000000, .complete boom 1773144000000,
        .complete (.ok ()) 1773144000000]
     let entered := tripped.2.act .quiet (.look .state 1773144000100)
     let since := [Action.ask 1773144000100, .complete (.ok ()) 1773144000100]
     tripped.2.state = .opened ∧ entered.2.state = .halfOpen ∧
       (entered.2.actAll .quiet since).2.state = .closed ∧
       since.countP Action.isSuccess < c.successThreshold) ∧
    (let c : Config := ⟨none, 1, 1, 100, .standard, by decide, by decide⟩
     let boom : Except Fault Unit := .error (.plain (Text.ofString "down"))
     let entered := (create c 8639999999999900).actAll .quiet
       [.ask 8639999999999900, .complete boom 8639999999999900, .look .state 8640000000000000]
     let since := [Action.ask 8640000000000001, .complete boom 8640000000000001,
       .ask 8640000000000000, .complete (.ok ()) 8640000000000000]
     entered.2.state = .halfOpen ∧ (entered.2.actAll .quiet since).2.state = .closed ∧
       since.countP (Action.isCountedFailure c.policy) = 1) ∧
    (let c : Config := ⟨none, 1, 1, 100, .standard, by decide, by decide⟩
     let entered := (create c 1773144000000).actAll .quiet
       [.ask 1773144000000, .complete (.error (.plain (Text.ofString "down"))) 1773144000000,
        .look .state 1773144000100]
     let since := [Action.ask 1773144000100, .complete (.error .textless) 1773144000100,
       .ask 1773144000100, .complete (.ok ()) 1773144000100]
     entered.2.state = .halfOpen ∧ (entered.2.actAll .quiet since).2.state = .closed ∧
       since.countP (Action.isCountedFailure c.policy) = 1) := by
  decide

end Breaker

end LaneGate.Breaker
