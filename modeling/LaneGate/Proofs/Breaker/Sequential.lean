import LaneGate.Proofs.Breaker.Steps
/-!
# One call at a time: the breaker is a three-phase machine

A caller who waits for each call to end sees a breaker as a machine with three
phases: closed with the number of counted failures in a row, open since the time it
opened, and half-open with the number of trial successes in a row. `Phase.use` is
that machine, read off the breaker's documentation: a counted failure opens a closed
phase at the failure threshold and a half-open phase at once; a success clears a
closed phase and closes a half-open one at the success threshold; an open phase
becomes half-open at the first look (a state read, a flag, `remainingMs`, a snapshot
or the admission check of a call) made once `recoveryTimeoutMs` has passed, and
refuses calls before that; a fault the policy does not count changes nothing; a reset
closes. `Breaker.use` is what the breaker does with the same use, and `Breaker.phase`
reads the phase off a breaker.

## What is proved

* `Breaker.use_refines`: one use of an orderly breaker answers as the machine does
  and moves the breaker to the machine's next phase.
* `Breaker.uses_refine`: from a new breaker whose sink throws only values with a
  text, for every sequence of uses whose clock readings are dates and whose failures
  have a text, every answer is the machine's and the breaker ends in the machine's
  phase.
* `Breaker.textless_failure_keeps_closed`: a failure with no text, counted at a date,
  leaves the breaker closed where the machine opens.

## Honest scope

The machine compares times as the breaker does, by subtracting doubles, so nothing is
assumed about the order of the readings. A reading that is no date is left out: a
completion at such a time counts the call and cannot change the state. So is a value
with no text, thrown by the operation or by the sink: converting it to text for the
log throws a `TypeError` partway through the step.
-/

namespace LaneGate.Breaker

/-- The phase of a breaker that is used one call at a time. -/
inductive Phase where
  /-- Calls pass; `failures` counted failures in a row. -/
  | closed (failures : Nat)
  /-- Calls are refused; the breaker opened at `since`. -/
  | opened (since : Float)
  /-- Trial calls pass; `successes` of them succeeded in a row. -/
  | halfOpen (successes : Nat)

/-- What a caller can read of a breaker. The flags `isClosed`, `isOpen` and
`isHalfOpen` read the state. -/
inductive Look where
  /-- The state. -/
  | state
  /-- The time until a trial call is let through. -/
  | remaining
  /-- The snapshot. -/
  | snapshot

/-- One use of a breaker by a caller who waits for each call to end. -/
inductive Use where
  /-- A call, let through (or not) at `admitAt` and ended at `doneAt` with a value or a
  fault. -/
  | call (admitAt : Float) (outcome : Except Fault Unit) (doneAt : Float)
  /-- A manual reset. -/
  | reset (now : Float)
  /-- A look at the breaker. -/
  | look (kind : Look) (now : Float)

/-- Every clock reading of a use is a date. -/
def Use.Dated : Use → Prop
  | .call a _ d => Breaker.isDate a = true ∧ Breaker.isDate d = true
  | .reset t => Breaker.isDate t = true
  | .look _ t => Breaker.isDate t = true

instance : DecidablePred Use.Dated
  | .call _ _ _ => inferInstanceAs (Decidable (_ ∧ _))
  | .reset _ => inferInstanceAs (Decidable (_ = _))
  | .look _ _ => inferInstanceAs (Decidable (_ = _))

/-- Every fault a call of the use ends with has a text. -/
def Use.Described : Use → Prop
  | .call _ (.error f) _ => f.hasText = true
  | _ => True

instance : DecidablePred Use.Described
  | .call _ (.error f) _ => inferInstanceAs (Decidable (f.hasText = true))
  | .call _ (.ok _) _ => inferInstanceAs (Decidable True)
  | .reset _ => inferInstanceAs (Decidable True)
  | .look _ _ => inferInstanceAs (Decidable True)

/-- What a use answers; each look and a reset may fail with what gets out of the sink. -/
inductive Seen where
  /-- The answer of a call. -/
  | answer (r : Except Fault Unit)
  /-- A state read. -/
  | state (s : Except Fault State)
  /-- The time until a trial call is let through. -/
  | remaining (ms : Except Fault Float)
  /-- The state a snapshot shows, or why it failed. -/
  | snapshot (s : Except Fault State)
  /-- A reset answers nothing, or what got out of the sink. -/
  | done (r : Except Fault Unit)

namespace Phase

variable (c : Config)

/-- The state a phase shows. -/
def state : Phase → State
  | .closed _ => .closed
  | .opened _ => .opened
  | .halfOpen _ => .halfOpen

/-- A look at `now`: an open phase whose waiting time is over becomes half-open. -/
def look (now : Float) : Phase → Phase
  | .opened t₀ => if now - t₀ ≥ c.recoveryTimeoutMs then .halfOpen 0 else .opened t₀
  | p => p

/-- The time until an open phase lets a trial call through; zero in the others. -/
def remaining (now : Float) : Phase → Float
  | .opened t₀ => max 0 (c.recoveryTimeoutMs - (now - t₀))
  | _ => 0

/-- A success. (An open phase lets no call through, so it sees none.) -/
def success : Phase → Phase
  | .closed _ => .closed 0
  | .halfOpen s => if s + 1 ≥ c.successThreshold then .closed 0 else .halfOpen (s + 1)
  | .opened t₀ => .opened t₀

/-- A counted failure at `now`. -/
def failure (now : Float) : Phase → Phase
  | .closed f => if f + 1 ≥ c.failureThreshold then .opened now else .closed (f + 1)
  | .halfOpen _ => .opened now
  | .opened t₀ => .opened t₀

/-- The end of a call that was let through, at `now`. -/
def finish (now : Float) (p : Phase) : Except Fault Unit → Phase
  | .ok () => p.success c
  | .error f => if c.policy.counts f then p.failure c now else p

/-- One use: its answer and the next phase. -/
def use (p : Phase) : Use → Seen × Phase
  | .call a o d =>
    match p.look c a with
    | .opened t₀ =>
      (.answer (.error (.circuitOpen c.key (.num (max 0 (c.recoveryTimeoutMs - (a - t₀)))))),
        .opened t₀)
    | p' => (.answer o, p'.finish c d o)
  | .reset _ => (.done (.ok ()), .closed 0)
  | .look .state t => (.state (.ok (p.look c t).state), p.look c t)
  | .look .remaining t => (.remaining (.ok ((p.look c t).remaining c t)), p.look c t)
  | .look .snapshot t => (.snapshot (.ok (p.look c t).state), p.look c t)

/-- A sequence of uses: the answers, in order, and the last phase. -/
def useAll (p : Phase) : List Use → List Seen × Phase
  | [] => ([], p)
  | u :: us =>
    let (s, p) := p.use c u
    let (ss, p) := p.useAll us
    (s :: ss, p)

/-- A call the machine's look finds open is refused with the time left. -/
theorem use_call_of_opened {p : Phase} {a d t₀ : Float} {o : Except Fault Unit}
    (h : p.look c a = .opened t₀) :
    p.use c (.call a o d) =
      (.answer (.error (.circuitOpen c.key (.num (max 0 (c.recoveryTimeoutMs - (a - t₀)))))),
        .opened t₀) := by
  simp only [use, h]

/-- A call the machine's look finds not open gets the operation's answer. -/
theorem use_call_of_ne_opened {p : Phase} {a d : Float} {o : Except Fault Unit}
    (h : (p.look c a).state ≠ .opened) :
    p.use c (.call a o d) = (.answer o, (p.look c a).finish c d o) := by
  simp only [use]
  split
  · next t₀ hl => simp [hl, state] at h
  · rfl

end Phase

namespace Breaker

/-- One use of a breaker whose events go to `sink`: its answer and the breaker after it. -/
def use (b : Breaker) (sink : Sink) : Use → Seen × Breaker
  | .call a o d => let s := b.execute a o d sink; (.answer s.value, s.breaker)
  | .reset t => (.done (sink.escape (b.reset t).2), (b.reset t).1)
  | .look .state t => let s := (b.readState t).through sink; (.state s.value, s.breaker)
  | .look .remaining t => let s := (b.remainingMs t).through sink; (.remaining s.value, s.breaker)
  | .look .snapshot t => let s := b.snapshot t sink; (.snapshot (s.value.map (·.state)), s.breaker)

/-- A sequence of uses: the answers, in order, and the breaker after the last. -/
def useAll (b : Breaker) (sink : Sink) : List Use → List Seen × Breaker
  | [] => ([], b)
  | u :: us =>
    let (s, b) := b.use sink u
    let (ss, b) := b.useAll sink us
    (s :: ss, b)

/-- The phase of a breaker: its state, with the failure streak when closed, the time
it opened when open, and the success streak when half-open. -/
def phase (b : Breaker) : Phase :=
  match b.state with
  | .closed => .closed b.stats.consecutiveFailures
  | .opened => .opened b.lastChange
  | .halfOpen => .halfOpen b.stats.consecutiveSuccesses

/-- What holds of a breaker used one call at a time: an open breaker has no success
streak (it opened on a failure and no call has ended since), and its state last
changed at a date. -/
structure Orderly (b : Breaker) : Prop where
  streak_of_opened : b.state = .opened → b.stats.consecutiveSuccesses = 0
  dated : isDate b.lastChange = true

variable {b : Breaker} {t : Float} {sink : Sink}

@[simp] theorem phase_state (b : Breaker) : b.phase.state = b.state := by
  unfold phase
  split <;> simp_all [Phase.state]

theorem remaining_phase (b : Breaker) (t : Float) :
    b.phase.remaining b.config t = b.remainingOf t := by
  unfold phase remainingOf
  split <;> simp_all [Phase.remaining, elapsed]

/-! ### Looks -/

/-- The success streak through a look. -/
theorem settle_consecutiveSuccesses (b : Breaker) (t : Float) :
    (b.settle t).1.stats.consecutiveSuccesses = b.stats.consecutiveSuccesses :=
  congrArg Counters.consecutiveSuccesses (settle_counters b t)

/-- An open breaker recovers exactly when the machine's look finds its waiting time over. -/
theorem recovered_iff (hs : b.state = .opened) :
    b.recovered t = true ↔ t - b.lastChange ≥ b.config.recoveryTimeoutMs := by
  simp [recovered, hs, elapsed]

/-- A look moves an orderly breaker as the machine's look moves its phase. -/
theorem phase_settle (h : b.Orderly) : (b.settle t).1.phase = b.phase.look b.config t := by
  by_cases hs : b.state = .opened
  · have hz := h.streak_of_opened hs
    by_cases hr : t - b.lastChange ≥ b.config.recoveryTimeoutMs
    · have hrec : b.recovered t = true := (recovered_iff hs).2 hr
      have hstate : (b.settle t).1.state = .halfOpen := by simp [hrec]
      simp only [phase, hstate, hs, Phase.look, if_pos hr, settle_consecutiveSuccesses, hz]
    · have hrec : b.recovered t = false := by
        simpa using mt (recovered_iff hs).1 hr
      rw [settle_eq, if_neg (by simp [hrec])]
      simp only [phase, hs, Phase.look, if_neg hr]
  · rw [settle_of_ne_opened b t hs]
    unfold phase
    split <;> simp_all [Phase.look]

/-- A look keeps a breaker orderly, when its time is a date. -/
theorem Orderly.settle (h : b.Orderly) (ht : isDate t = true) : (b.settle t).1.Orderly := by
  constructor
  · intro hs
    cases hrec : b.recovered t with
    | true => simp [hrec] at hs
    | false =>
      have hs' : b.state = .opened := by simpa [hrec] using hs
      rw [settle_consecutiveSuccesses]
      exact h.streak_of_opened hs'
  · rw [settle_lastChange]
    split
    · exact ht
    · exact h.dated

/-! ### Completions -/

theorem phase_of_opened (h : b.state = .opened) : b.phase = .opened b.lastChange := by
  simp [phase, h]

/-- A success moves a breaker that let the call through as the machine's success moves
its phase, whatever gets out of the sink: only the closing can be cut short, and a
closed phase does not show the success streak. -/
theorem phase_succeed (hs : b.state ≠ .opened) (ht : isDate t = true) :
    (b.succeed t sink).breaker.phase = b.phase.success b.config := by
  have hc := succeed_counters b t sink
  have hf : (b.succeed t sink).breaker.stats.consecutiveFailures = 0 :=
    congrArg Counters.consecutiveFailures hc
  cases hst : b.state with
  | opened => exact absurd hst hs
  | closed =>
    have hno : ¬ b.ClosesOnSuccess t := fun h => by simp [ClosesOnSuccess, hst] at h
    simp only [phase, succeed_state, if_neg hno, hst, hf, Phase.success]
  | halfOpen =>
    by_cases hth : b.config.successThreshold ≤ b.stats.consecutiveSuccesses + 1
    · have hyes : b.ClosesOnSuccess t := ⟨ht, hst, hth⟩
      simp only [phase, succeed_state, if_pos hyes, hf, hst, Phase.success, ge_iff_le, if_pos hth]
    · have hno : ¬ b.ClosesOnSuccess t := fun h => hth h.2.2
      have hsucc : (b.succeed t sink).breaker.stats.consecutiveSuccesses =
          b.stats.consecutiveSuccesses + 1 := by
        have h := congrArg Counters.consecutiveSuccesses hc
        rwa [if_neg (fun h => hno h.1)] at h
      simp only [phase, succeed_state, if_neg hno, hst, hsucc, Phase.success, ge_iff_le,
        if_neg hth]

theorem Orderly.succeed (h : b.Orderly) (hs : b.state ≠ .opened) (ht : isDate t = true) :
    (b.succeed t sink).breaker.Orderly := by
  constructor
  · intro ho
    rw [succeed_state] at ho
    split at ho
    · cases ho
    · exact absurd ho hs
  · rw [succeed_lastChange]
    split
    · exact ht
    · exact h.dated

/-- A counted failure with a text moves a breaker that let the call through as the
machine's failure moves its phase. -/
theorem phase_recordFailure {f : Fault} (hs : b.state ≠ .opened) (ht : isDate t = true)
    (hf : f.hasText = true) :
    (b.recordFailure t f sink).breaker.phase = b.phase.failure b.config t := by
  have hcf : (b.recordFailure t f sink).breaker.stats.consecutiveFailures =
      b.stats.consecutiveFailures + 1 :=
    congrArg Counters.consecutiveFailures (recordFailure_counters b t sink f)
  cases hst : b.state with
  | opened => exact absurd hst hs
  | closed =>
    by_cases hth : b.config.failureThreshold ≤ b.stats.consecutiveFailures + 1
    · have hyes : b.OpensOnFailure t := ⟨ht, .inr ⟨hst, hth⟩⟩
      simp only [phase, recordFailure_state, recordFailure_lastChange, if_pos (And.intro hyes hf),
        hst, Phase.failure, ge_iff_le, if_pos hth]
    · have hno : ¬ b.OpensOnFailure t := by simp [OpensOnFailure, hst, hth]
      simp only [phase, recordFailure_state, if_neg (fun h => hno (And.left h)), hst, hcf,
        Phase.failure, ge_iff_le, if_neg hth]
  | halfOpen =>
    have hyes : b.OpensOnFailure t := ⟨ht, .inl hst⟩
    simp only [phase, recordFailure_state, recordFailure_lastChange, if_pos (And.intro hyes hf),
      hst, Phase.failure]

theorem Orderly.recordFailure {f : Fault} (h : b.Orderly) (ht : isDate t = true) :
    (b.recordFailure t f sink).breaker.Orderly := by
  constructor
  · intro _
    exact congrArg Counters.consecutiveSuccesses (recordFailure_counters b t sink f)
  · rw [recordFailure_lastChange]
    split
    · exact ht
    · exact h.dated

/-- The end of a call moves a breaker that let it through as the machine's `finish`
moves its phase, and the call answers what the operation did, when nothing with no
text is thrown. -/
theorem complete_refines (h : b.Orderly) (hs : b.state ≠ .opened) (ht : isDate t = true)
    (hsink : sink.Tame) (o : Except Fault Unit) (ho : ∀ f, o = .error f → f.hasText = true) :
    (b.complete t o sink).value = .ok () ∧
      (b.complete t o sink).breaker.phase = b.phase.finish b.config t o ∧
      (b.complete t o sink).breaker.Orderly ∧ (b.complete t o sink).breaker.config = b.config := by
  cases o with
  | ok u =>
    rw [complete_ok]
    refine ⟨by simp [succeed_value, ht, Sink.escape_of_tame hsink], ?_, h.succeed hs ht,
      succeed_config b t sink⟩
    rw [phase_succeed hs ht]
    rfl
  | error f =>
    have hf := ho f rfl
    rw [complete_error, fail_eq]
    by_cases hc : b.config.policy.counts f = true
    · rw [if_pos hc]
      refine ⟨by simp [recordFailure_value, ht, hf, Sink.escape_of_tame hsink], ?_,
        h.recordFailure ht, recordFailure_config b t sink f⟩
      rw [phase_recordFailure hs ht hf]
      simp [Phase.finish, hc]
    · rw [if_neg hc]
      exact ⟨rfl, by simp [Phase.finish, hc], h, rfl⟩

/-! ### Uses and runs -/

theorem Orderly.allow (h : b.Orderly) (ht : isDate t = true) : (b.allow t sink).breaker.Orderly := by
  have hs := h.settle ht
  constructor
  · intro ho
    rw [allow_state] at ho
    have hsucc : (b.allow t sink).breaker.stats.consecutiveSuccesses = b.stats.consecutiveSuccesses := by
      rw [show (b.allow t sink).breaker.stats.consecutiveSuccesses =
        (b.allow t sink).breaker.stats.counters.consecutiveSuccesses from rfl, allow_counters]
      split <;> rfl
    rw [hsucc, ← settle_consecutiveSuccesses b t]
    exact hs.streak_of_opened ho
  · rw [allow_lastChange]
    exact hs.dated

theorem phase_allow_of_opened (h : (b.settle t).1.state = .opened) :
    (b.allow t sink).breaker.phase = .opened (b.settle t).1.lastChange := by
  have hs : (b.allow t sink).breaker.state = .opened := by rw [allow_state, h]
  rw [phase_of_opened hs, allow_lastChange]

/-- **One use refines one step of the machine**: an orderly breaker whose sink throws
only values with a text answers a use whose clock readings are dates and whose faults
have a text as the machine does, moves to the machine's next phase, and stays orderly. -/
theorem use_refines (h : b.Orderly) (hsink : sink.Tame) {u : Use} (hu : u.Dated)
    (hd : u.Described) :
    ((b.use sink u).1, (b.use sink u).2.phase) = b.phase.use b.config u ∧
      (b.use sink u).2.Orderly ∧ (b.use sink u).2.config = b.config := by
  cases u with
  | call a o d =>
    obtain ⟨ha, hdd⟩ := hu
    have hlook := phase_settle (t := a) h
    have hs := h.settle ha
    have he : sink.escape (b.settle a).2 = .ok () := Sink.escape_of_tame hsink _
    by_cases ho : (b.settle a).1.state = .opened
    · have hp : b.phase.look b.config a = .opened (b.settle a).1.lastChange := by
        rw [← hlook, phase_of_opened ho]
      simp only [use, execute_of_opened b sink a d o he ho]
      rw [Phase.use_call_of_opened b.config hp, phase_allow_of_opened ho]
      refine ⟨?_, h.allow ha, allow_config b a sink⟩
      simp [elapsed]
    · have hp : (b.phase.look b.config a).state ≠ .opened := by
        rw [← hlook, phase_state]
        exact ho
      have htext : ∀ f, o = .error f → f.hasText = true := by
        rintro f rfl
        exact hd
      obtain ⟨hv, hph, hO, hc⟩ := complete_refines hs ho hdd hsink o htext
      simp only [use, execute_of_ne_opened b sink a d o he ho, hv, passOn_ok]
      rw [Phase.use_call_of_ne_opened b.config hp, hph, hc, settle_config, hlook]
      exact ⟨rfl, hO, rfl⟩
  | reset t =>
    have hf : (b.reset t).1.stats.consecutiveFailures = 0 :=
      congrArg Counters.consecutiveFailures (reset_counters b t)
    refine ⟨?_, ⟨fun ho => by simp [use] at ho, ?_⟩, reset_config b t⟩
    · simp [use, Phase.use, phase, hf, Sink.escape_of_tame hsink]
    · simp only [use, reset_lastChange]
      split
      · exact h.dated
      · exact hu
  | look kind t =>
    have hlook := phase_settle (t := t) h
    have hs := h.settle hu
    cases kind with
    | state =>
      refine ⟨?_, hs, settle_config b t⟩
      simp only [use, Phase.use, Step.through_value_of_tame _ hsink, Step.through_breaker,
        readState_value, readState_breaker]
      rw [← hlook, phase_state]
    | remaining =>
      refine ⟨?_, hs, settle_config b t⟩
      simp only [use, Phase.use, Step.through_value_of_tame _ hsink, Step.through_breaker,
        remainingMs_breaker]
      rw [← hlook, ← settle_config b t, remaining_phase]
      rfl
    | snapshot =>
      refine ⟨?_, hs, settle_config b t⟩
      simp only [use, Phase.use, snapshot_breaker,
        snapshot_state b t sink (Sink.escape_of_tame hsink _) hs.dated, hlook]
      rw [← hlook, phase_state]

/-- **A run refines the machine**: from an orderly breaker whose sink throws only
values with a text, a sequence of uses whose clock readings are dates and whose faults
have a text gets the machine's answers and ends in its phase. -/
theorem useAll_refines (hsink : sink.Tame) (us : List Use) (hus : ∀ u ∈ us, u.Dated)
    (hds : ∀ u ∈ us, u.Described) (h : b.Orderly) :
    ((b.useAll sink us).1, (b.useAll sink us).2.phase) = b.phase.useAll b.config us := by
  induction us generalizing b with
  | nil => rfl
  | cons u us ih =>
    obtain ⟨hstep, hO, hc⟩ :=
      use_refines h hsink (hus u (List.mem_cons_self ..)) (hds u (List.mem_cons_self ..))
    have hrest := ih (fun v hv => hus v (List.mem_cons_of_mem u hv))
      (fun v hv => hds v (List.mem_cons_of_mem u hv)) hO
    rw [hc] at hrest
    simp only [useAll, Phase.useAll, ← hstep, ← hrest]

/-- **Sequential-run refinement of the breaker**: a new breaker whose sink throws only
values with a text, used one call at a time with clock readings that are dates and
failures that have a text, answers every use (every call, reset, state read,
`remainingMs` and snapshot) exactly as the three-phase machine does, and ends in the
machine's phase. -/
theorem uses_refine (c : Config) (t₀ : Float) (sink : Sink) (hsink : sink.Tame)
    (h₀ : isDate t₀ = true) (us : List Use) (hus : ∀ u ∈ us, u.Dated)
    (hds : ∀ u ∈ us, u.Described) :
    (((create c t₀).useAll sink us).1, ((create c t₀).useAll sink us).2.phase) =
      (Phase.closed 0).useAll c us := by
  have hO : (create c t₀).Orderly := ⟨fun h => by simp [create] at h, h₀⟩
  exact useAll_refines hsink us hus hds hO

/-- A breaker that opens at the second failure, waits 100 ms and closes after two
trial successes. -/
def slowToTrip : Config := ⟨none, 2, 2, 100, .standard, by decide, by decide⟩

/-- Two failures, a state read once the waiting time is over, and two successes. -/
def tripAndRecover : List Use :=
  [.call 1773144000000 (.error (.plain (Text.ofString "down"))) 1773144000000,
    .call 1773144000000 (.error (.plain (Text.ofString "down"))) 1773144000000,
    .look .state 1773144000100, .call 1773144000100 (.ok ()) 1773144000100,
    .call 1773144000100 (.ok ()) 1773144000100]

/-- A trip and a recovery, with a sink that throws on every event. -/
theorem uses_refine_trip_and_recover :
    Sink.failing.Tame ∧ isDate 1773144000000 = true ∧ (∀ u ∈ tripAndRecover, u.Dated) ∧
      (∀ u ∈ tripAndRecover, u.Described) ∧
      (((create slowToTrip 1773144000000).useAll .failing tripAndRecover).1,
        ((create slowToTrip 1773144000000).useAll .failing tripAndRecover).2.phase) =
        (Phase.closed 0).useAll slowToTrip tripAndRecover :=
  ⟨Sink.failing_tame, by decide, by decide, by decide,
    uses_refine _ _ _ Sink.failing_tame (by decide) _ (by decide) (by decide)⟩

/-- A breaker that opens at the first counted failure. -/
def quickToTrip : Config := ⟨none, 1, 1, 100, .standard, by decide, by decide⟩

/-- A call that fails, at a date, with a value that has no text. -/
def textlessCall : Use := .call 1773144000000 (.error .textless) 1773144000000

/-- A failure with no text, counted at a date by a breaker that opens at the first
counted failure: the machine opens, while the breaker counts the failure, stays closed
and answers the `TypeError` of converting the value to text. -/
theorem textless_failure_keeps_closed :
    textlessCall.Dated ∧
      ((Phase.closed 0).useAll quickToTrip [textlessCall]).2.state = .opened ∧
      ((create quickToTrip 1773144000000).useAll .quiet [textlessCall]).2.state = .closed ∧
      ((create quickToTrip 1773144000000).useAll .quiet [textlessCall]).2.stats.consecutiveFailures = 1 ∧
      ((create quickToTrip 1773144000000).useAll .quiet [textlessCall]).1 =
        [.answer (.error .wrongType)] :=
  ⟨by decide, by decide, by decide, by decide, rfl⟩

end Breaker

end LaneGate.Breaker
