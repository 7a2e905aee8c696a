import LaneGate.Breaker.Machine
/-!
# What each breaker operation does

Every operation on a breaker is a small function of the breaker and the time. This
module says once, for each of them, what it does to the three things the later
proofs read: the state, the time of the last change of state, and the counters that
calls move (`Stats.counters`: the completions, the refusals and the two streaks).
The proofs about runs cite these lemmas and never open the operations again.

Looking at the state (`settle`, and so `readState`, `remainingMs`, `snapshot` and the
admission check) changes at most the state and its time: an open breaker that has
waited `recoveryTimeoutMs` becomes half-open. A completion always counts the call,
even when its time is no date; only the change of state it may cause waits for a
time that is a date, and, for a counted failure, for a failure that has a text.

The sink decides only what an operation answers and what it does after handing over
an event: the events handed over, and every change made before, are the same
whatever the sink does. Nothing gets out of a tame sink (`Sink.escape_of_tame`).
-/

namespace LaneGate.Breaker

/-- The counters that calls move: completed calls, successes, counted failures,
refusals, and the two streaks. The number of changes of state and the times of the
last success and failure are left out. -/
structure Counters where
  /-- Completed calls, successful or counted as failed. -/
  totalCalls : Nat
  /-- Successful calls. -/
  successfulCalls : Nat
  /-- Calls that failed with a counted fault. -/
  failedCalls : Nat
  /-- Calls refused while open. -/
  rejectedCalls : Nat
  /-- Counted failures since the last success. -/
  consecutiveFailures : Nat
  /-- Successes since the last counted failure. -/
  consecutiveSuccesses : Nat
  deriving DecidableEq, Repr

/-- The counters of a breaker's statistics. -/
def Stats.counters (s : Stats) : Counters :=
  ⟨s.totalCalls, s.successfulCalls, s.failedCalls, s.rejectedCalls, s.consecutiveFailures,
    s.consecutiveSuccesses⟩

@[simp] theorem Stats.counters_totalCalls (s : Stats) : s.counters.totalCalls = s.totalCalls := rfl
@[simp] theorem Stats.counters_successfulCalls (s : Stats) :
    s.counters.successfulCalls = s.successfulCalls := rfl
@[simp] theorem Stats.counters_failedCalls (s : Stats) : s.counters.failedCalls = s.failedCalls := rfl
@[simp] theorem Stats.counters_rejectedCalls (s : Stats) :
    s.counters.rejectedCalls = s.rejectedCalls := rfl
@[simp] theorem Stats.counters_consecutiveFailures (s : Stats) :
    s.counters.consecutiveFailures = s.consecutiveFailures := rfl
@[simp] theorem Stats.counters_consecutiveSuccesses (s : Stats) :
    s.counters.consecutiveSuccesses = s.consecutiveSuccesses := rfl

namespace Sink

@[simp] theorem escape_nil (s : Sink) : s.escape [] = .ok () := rfl

/-- Nothing gets out of a sink whose thrown values all have a text. -/
theorem escape_of_tame {s : Sink} (h : s.Tame) (evs : List Event) : s.escape evs = .ok () := by
  induction evs with
  | nil => rfl
  | cons e es ih =>
    unfold escape
    cases ht : s.throws e with
    | none => exact ih
    | some f => simp [Fault.describe_of_hasText (h e f ht), ih]

/-- What gets out of a sink is the `TypeError` of converting a value with no text. -/
theorem eq_wrongType_of_escape {s : Sink} {evs : List Event} {f : Fault}
    (h : s.escape evs = .error f) : f = .wrongType := by
  induction evs with
  | nil => cases h
  | cons e es ih =>
    unfold escape at h
    split at h
    · next t ht =>
      cases hs : s.throws e with
      | none => simp [hs] at ht
      | some g =>
        cases hg : g.hasText <;> simp_all [Fault.describe]
    · exact ih h

theorem quiet_tame : quiet.Tame := fun _ _ h => by simp [quiet] at h

@[simp] theorem escape_quiet (evs : List Event) : quiet.escape evs = .ok () :=
  escape_of_tame quiet_tame evs

theorem failing_tame : failing.Tame := fun _ _ h => by
  simp only [failing, Option.some.injEq] at h
  rw [← h]
  rfl

end Sink

@[simp] theorem Step.through_breaker {α : Type} (s : Step α) (sink : Sink) :
    (s.through sink).breaker = s.breaker := rfl

@[simp] theorem Step.through_events {α : Type} (s : Step α) (sink : Sink) :
    (s.through sink).events = s.events := rfl

/-- Through a tame sink a caller gets the operation's own answer. -/
theorem Step.through_value_of_tame {α : Type} (s : Step α) {sink : Sink} (h : sink.Tame) :
    (s.through sink).value = .ok s.value := by
  simp [Step.through, Sink.escape_of_tame h, Except.map]

theorem Step.through_of_tame {α : Type} (s : Step α) {sink : Sink} (h : sink.Tame) :
    s.through sink = s.through .quiet := by
  simp [Step.through, Sink.escape_of_tame h]

namespace Breaker

variable (b : Breaker) (now : Float) (sink : Sink)

/-! ### Changes of state -/

@[simp] theorem transition_state (next : State) (r : String) :
    (b.transition now next r).1.state = next := by
  unfold transition
  split <;> simp_all

@[simp] theorem transition_config (next : State) (r : String) :
    (b.transition now next r).1.config = b.config := by
  unfold transition
  split <;> rfl

theorem transition_lastChange (next : State) (r : String) :
    (b.transition now next r).1.lastChange = if b.state = next then b.lastChange else now := by
  unfold transition
  split <;> simp_all

/-- A change of state counts itself and nothing else. -/
@[simp] theorem transition_counters (next : State) (r : String) :
    (b.transition now next r).1.stats.counters = b.stats.counters := by
  unfold transition
  split <;> rfl

/-! ### Looking at the state -/

/-- Only an open breaker recovers. -/
theorem state_of_recovered (h : b.recovered now = true) : b.state = .opened := by
  simp only [recovered, Bool.and_eq_true, beq_iff_eq] at h
  exact h.1

theorem settle_eq :
    b.settle now = if b.recovered now then b.transition now .halfOpen "recovery timeout elapsed"
      else (b, []) := rfl

@[simp] theorem settle_state :
    (b.settle now).1.state = if b.recovered now then .halfOpen else b.state := by
  rw [settle_eq]
  split <;> simp

@[simp] theorem settle_config : (b.settle now).1.config = b.config := by
  rw [settle_eq]
  split <;> simp

theorem settle_lastChange :
    (b.settle now).1.lastChange = if b.recovered now then now else b.lastChange := by
  rw [settle_eq]
  split
  · next h => simp [transition_lastChange, state_of_recovered b now h]
  · rfl

@[simp] theorem settle_counters : (b.settle now).1.stats.counters = b.stats.counters := by
  rw [settle_eq]
  split <;> simp

/-- A breaker that is not open is left as it is by a look, which emits nothing. -/
theorem settle_of_ne_opened (h : b.state ≠ .opened) : b.settle now = (b, []) := by
  have : b.recovered now = false := by simp [recovered, h]
  simp [settle_eq, this]

/-- A second look at the same time finds the breaker as the first left it. -/
@[simp] theorem settle_settle : ((b.settle now).1.settle now).1 = (b.settle now).1 := by
  by_cases h : b.recovered now
  · rw [settle_of_ne_opened _ now (by simp [h])]
  · simp [settle_eq, h]

@[simp] theorem readState_breaker : (b.readState now).breaker = (b.settle now).1 := rfl

@[simp] theorem readState_value : (b.readState now).value = (b.settle now).1.state := rfl

@[simp] theorem readState_events : (b.readState now).events = (b.settle now).2 := rfl

@[simp] theorem remainingMs_breaker : (b.remainingMs now).breaker = (b.settle now).1 := rfl

@[simp] theorem remainingMs_events : (b.remainingMs now).events = (b.settle now).2 := rfl

@[simp] theorem snapshot_breaker : (b.snapshot now sink).breaker = (b.settle now).1 := rfl

@[simp] theorem snapshot_events : (b.snapshot now sink).events = (b.settle now).2 := rfl

/-- A snapshot shows the state after the look, when nothing got out of the sink and the
last change of state was at a date. -/
theorem snapshot_state (he : sink.escape (b.settle now).2 = .ok ())
    (h : isDate (b.settle now).1.lastChange = true) :
    (b.snapshot now sink).value.map (·.state) = .ok (b.settle now).1.state := by
  simp [snapshot, he, h, Except.map]

/-! ### Admission -/

theorem allow_eq :
    b.allow now sink =
      match sink.escape (b.settle now).2 with
      | .error f => ⟨.error f, (b.settle now).1, (b.settle now).2⟩
      | .ok () =>
        if (b.settle now).1.state = .opened then
          let b' := (b.settle now).1
          let b' := { b' with stats := { b'.stats with rejectedCalls := b'.stats.rejectedCalls + 1 } }
          ⟨.error (.circuitOpen b'.config.key
            (.num (max 0 (b'.config.recoveryTimeoutMs - b'.elapsed now)))), b', (b.settle now).2⟩
        else ⟨.ok (), (b.settle now).1, (b.settle now).2⟩ := rfl

@[simp] theorem allow_state : (b.allow now sink).breaker.state = (b.settle now).1.state := by
  rw [allow_eq]
  split
  · rfl
  · split <;> rfl

@[simp] theorem allow_config : (b.allow now sink).breaker.config = b.config := by
  rw [allow_eq]
  split
  · simp
  · split <;> simp

@[simp] theorem allow_lastChange :
    (b.allow now sink).breaker.lastChange = (b.settle now).1.lastChange := by
  rw [allow_eq]
  split
  · rfl
  · split <;> rfl

@[simp] theorem allow_events : (b.allow now sink).events = (b.settle now).2 := by
  rw [allow_eq]
  split
  · rfl
  · split <;> rfl

/-- An admission counts a refusal exactly when the look lets nothing out of the sink and
finds the breaker open. -/
theorem allow_counters :
    (b.allow now sink).breaker.stats.counters =
      if (sink.escape (b.settle now).2).isOk ∧ (b.settle now).1.state = .opened then
        { b.stats.counters with rejectedCalls := b.stats.rejectedCalls + 1 }
      else b.stats.counters := by
  have h := settle_counters b now
  have hr : (b.settle now).1.stats.rejectedCalls = b.stats.rejectedCalls :=
    congrArg Counters.rejectedCalls h
  rw [allow_eq]
  split
  · next f he => simp [he, h, Except.isOk, Except.toBool]
  · next he =>
    have hok : (sink.escape (b.settle now).2).isOk = true := by rw [he]; rfl
    split
    · next ho =>
      rw [if_pos ⟨hok, ho⟩]
      show { (b.settle now).1.stats.counters with
        rejectedCalls := (b.settle now).1.stats.rejectedCalls + 1 } = _
      rw [h, hr]
    · next ho =>
      rw [if_neg (fun hc => ho hc.2)]
      exact h

/-- A breaker that is not open once looked at lets the call through unchanged. -/
theorem allow_breaker_of_ne_opened (h : (b.settle now).1.state ≠ .opened) :
    (b.allow now sink).breaker = (b.settle now).1 := by
  rw [allow_eq]
  split
  · rfl
  · rw [if_neg h]

/-- A fault that gets out of the sink, else a refusal naming the breaker and the time
left, else `ok`. -/
theorem allow_value :
    (b.allow now sink).value =
      match sink.escape (b.settle now).2 with
      | .error f => .error f
      | .ok () =>
        if (b.settle now).1.state = .opened then
          .error (.circuitOpen b.config.key
            (.num (max 0 (b.config.recoveryTimeoutMs - (b.settle now).1.elapsed now))))
        else .ok () := by
  rw [allow_eq]
  split
  · rfl
  · split <;> simp [elapsed]

/-! ### Completions -/

/-- Whether a success at `now` closes the breaker: it is half-open, the time is a
date, and the success brings the streak to the threshold. -/
def ClosesOnSuccess : Prop :=
  isDate now = true ∧ b.state = .halfOpen ∧ b.config.successThreshold ≤ b.stats.consecutiveSuccesses + 1

instance : Decidable (b.ClosesOnSuccess now) :=
  inferInstanceAs (Decidable (_ ∧ _ ∧ _))

/-- Whether a counted failure at `now` opens the breaker: the time is a date, and it is
half-open, or closed with the failure streak reaching the threshold. -/
def OpensOnFailure : Prop :=
  isDate now = true ∧
    (b.state = .halfOpen ∨
      b.state = .closed ∧ b.config.failureThreshold ≤ b.stats.consecutiveFailures + 1)

instance : Decidable (b.OpensOnFailure now) :=
  inferInstanceAs (Decidable (_ ∧ (_ ∨ _ ∧ _)))

@[simp] theorem succeed_config : (b.succeed now sink).breaker.config = b.config := by
  unfold succeed
  by_cases hd : isDate now = true <;> simp only [hd, Bool.not_true, Bool.not_false,
    Bool.false_eq_true, ↓reduceIte]
  split
  · split <;> simp
  · rfl

@[simp] theorem succeed_state :
    (b.succeed now sink).breaker.state = if b.ClosesOnSuccess now then .closed else b.state := by
  unfold succeed ClosesOnSuccess
  by_cases hd : isDate now = true <;> by_cases hs : b.state = .halfOpen <;>
    by_cases ht : b.config.successThreshold ≤ b.stats.consecutiveSuccesses + 1 <;>
    simp only [hd, hs, ht] <;> simp <;> split <;> simp

theorem succeed_lastChange :
    (b.succeed now sink).breaker.lastChange = if b.ClosesOnSuccess now then now else b.lastChange := by
  unfold succeed ClosesOnSuccess
  by_cases hd : isDate now = true <;> by_cases hs : b.state = .halfOpen <;>
    by_cases ht : b.config.successThreshold ≤ b.stats.consecutiveSuccesses + 1 <;>
    simp only [hd, hs, ht] <;> simp <;> split <;> simp [transition_lastChange]

/-- The events of a success do not depend on the sink. -/
theorem succeed_events : (b.succeed now sink).events = (b.succeed now).events := by
  unfold succeed
  by_cases hd : isDate now = true <;> simp only [hd, Bool.not_true, Bool.not_false,
    Bool.false_eq_true, ↓reduceIte]
  split
  · split <;> split <;> rfl
  · rfl

/-- A success is always counted; it clears the failure streak and lengthens the
success streak, which the closing of the breaker clears as well, unless a fault gets
out of the sink as the close is emitted. -/
theorem succeed_counters :
    (b.succeed now sink).breaker.stats.counters =
      { b.stats.counters with
        totalCalls := b.stats.totalCalls + 1
        successfulCalls := b.stats.successfulCalls + 1
        consecutiveFailures := 0
        consecutiveSuccesses :=
          if b.ClosesOnSuccess now ∧ (sink.escape (b.succeed now).events).isOk then 0
          else b.stats.consecutiveSuccesses + 1 } := by
  rw [← succeed_events b now sink]
  unfold succeed ClosesOnSuccess
  by_cases hd : isDate now = true <;> by_cases hs : b.state = .halfOpen <;>
    by_cases ht : b.config.successThreshold ≤ b.stats.consecutiveSuccesses + 1 <;>
    simp only [hd, hs, ht] <;> simp [Stats.counters] <;> split <;>
    simp_all [transition, Except.isOk, Except.toBool]

/-- A success answers what gets out of the sink as its events are handed over, unless
its time is no date. -/
theorem succeed_value :
    (b.succeed now sink).value =
      if isDate now then sink.escape (b.succeed now).events else .error .invalidTime := by
  rw [← succeed_events b now sink]
  unfold succeed
  by_cases hd : isDate now = true <;> simp only [hd, Bool.not_true, Bool.not_false,
    Bool.false_eq_true, ↓reduceIte]
  split
  · split <;> simp_all
  · rfl

section failure

variable (f : Fault)

@[simp] theorem recordFailure_config : (b.recordFailure now f sink).breaker.config = b.config := by
  unfold recordFailure moved
  by_cases hd : isDate now = true <;> simp only [hd, Bool.not_true, Bool.not_false,
    Bool.false_eq_true, ↓reduceIte]
  split
  · rfl
  · split
    · simp
    · split <;> simp

/-- A counted failure opens a breaker it finds half-open, or closed at the threshold,
at a date, when the failure has a text. -/
@[simp] theorem recordFailure_state :
    (b.recordFailure now f sink).breaker.state =
      if b.OpensOnFailure now ∧ f.hasText = true then .opened else b.state := by
  unfold recordFailure moved OpensOnFailure
  by_cases hd : isDate now = true <;> by_cases hf : f.hasText = true <;>
    by_cases hh : b.state = .halfOpen <;> by_cases hc : b.state = .closed <;>
    by_cases ht : b.config.failureThreshold ≤ b.stats.consecutiveFailures + 1 <;>
    simp [hd, hf, hh, hc, ht, Fault.describe]

theorem recordFailure_lastChange :
    (b.recordFailure now f sink).breaker.lastChange =
      if b.OpensOnFailure now ∧ f.hasText = true then now else b.lastChange := by
  unfold recordFailure moved OpensOnFailure
  by_cases hd : isDate now = true <;> by_cases hf : f.hasText = true <;>
    by_cases hh : b.state = .halfOpen <;> by_cases hc : b.state = .closed <;>
    by_cases ht : b.config.failureThreshold ≤ b.stats.consecutiveFailures + 1 <;>
    simp [hd, hf, hh, hc, ht, Fault.describe, transition_lastChange]

/-- A counted failure is always counted; it lengthens the failure streak and clears
the success streak, whatever the state, the time, the sink and the failure. -/
theorem recordFailure_counters :
    (b.recordFailure now f sink).breaker.stats.counters =
      { b.stats.counters with
        totalCalls := b.stats.totalCalls + 1
        failedCalls := b.stats.failedCalls + 1
        consecutiveFailures := b.stats.consecutiveFailures + 1
        consecutiveSuccesses := 0 } := by
  unfold recordFailure moved
  by_cases hd : isDate now = true <;> by_cases hf : f.hasText = true <;>
    by_cases hh : b.state = .halfOpen <;> by_cases hc : b.state = .closed <;>
    by_cases ht : b.config.failureThreshold ≤ b.stats.consecutiveFailures + 1 <;>
    simp [hd, hf, hh, hc, ht, Fault.describe, Stats.counters, transition]

/-- The events of a counted failure do not depend on the sink. -/
theorem recordFailure_events : (b.recordFailure now f sink).events = (b.recordFailure now f).events := by
  unfold recordFailure moved
  by_cases hd : isDate now = true <;> simp only [hd, Bool.not_true, Bool.not_false,
    Bool.false_eq_true, ↓reduceIte]
  split
  · rfl
  · split
    · rfl
    · split <;> rfl

/-- A counted failure answers what gets out of the sink, unless its time is no date
or the failure has no text. -/
theorem recordFailure_value :
    (b.recordFailure now f sink).value =
      if isDate now then
        (if f.hasText then sink.escape (b.recordFailure now f).events else .error .wrongType)
      else .error .invalidTime := by
  rw [← recordFailure_events b now sink f]
  unfold recordFailure moved
  by_cases hd : isDate now = true <;> by_cases hf : f.hasText = true <;>
    simp only [hd, hf, Bool.not_true, Bool.not_false, Bool.false_eq_true, ↓reduceIte,
      Fault.describe]
  · split
    · rfl
    · split <;> rfl

/-- A fault the policy does not count leaves the breaker as it is. -/
theorem fail_eq :
    b.fail now f sink = if b.config.policy.counts f then b.recordFailure now f sink else ⟨.ok (), b, []⟩ :=
  rfl

@[simp] theorem fail_config : (b.fail now f sink).breaker.config = b.config := by
  rw [fail_eq]
  split
  · exact recordFailure_config b now sink f
  · rfl

end failure

theorem complete_ok {α : Type} (a : α) : b.complete now (.ok a) sink = b.succeed now sink := rfl

theorem complete_error {α : Type} (f : Fault) :
    b.complete now (.error f : Except Fault α) sink = b.fail now f sink := rfl

/-- At a date, the end of a call is recorded without a fault of its own, unless the
call failed with a counted fault that has no text: writing that one to the log throws. -/
theorem complete_value_of_isDate {α : Type} (h : isDate now = true) (o : Except Fault α) :
    (b.complete now o).value = .ok () ∨
      ∃ f, o = .error f ∧ f.hasText = false ∧ (b.complete now o).value = .error .wrongType := by
  cases o with
  | ok a => exact .inl (by rw [complete_ok, succeed_value, if_pos h, Sink.escape_quiet])
  | error f =>
    rw [complete_error, fail_eq]
    split
    · rw [recordFailure_value, if_pos h]
      cases hf : f.hasText
      · exact .inr ⟨f, rfl, hf, if_neg Bool.false_ne_true⟩
      · exact .inl (by rw [if_pos rfl, Sink.escape_quiet])
    · exact .inl rfl

/-- At a date, the end of a call whose fault, if any, has a text is recorded without a
fault of its own. -/
theorem complete_value_of_textful {α : Type} (h : isDate now = true) {o : Except Fault α}
    (ho : Fault.textful o = true) : (b.complete now o).value = .ok () := by
  rcases complete_value_of_isDate b now h o with hv | ⟨f, rfl, hf, -⟩
  · exact hv
  · rw [Fault.textful_error, hf] at ho
    cases ho

/-- With the quiet sink, a call is refused, if it is, with a fault that has a text. -/
theorem allow_value_textful : Fault.textful (b.allow now).value = true := by
  rw [allow_value, Sink.escape_quiet]
  dsimp only
  split <;> rfl

/-- Recording how a call ended fails, if it does, with a fault that has a text: the
clock reading is no date, or the call's fault had none. -/
theorem complete_value_textful {α : Type} (o : Except Fault α) : Fault.textful (b.complete now o).value = true := by
  cases o with
  | ok a =>
    rw [complete_ok, succeed_value, Sink.escape_quiet]
    split <;> rfl
  | error f =>
    rw [complete_error, fail_eq]
    split
    · rw [recordFailure_value, Sink.escape_quiet]
      split
      · split <;> rfl
      · rfl
    · rfl

theorem passOn_textful {α : Type} {recorded : Except Fault Unit} {o : Except Fault α}
    (hr : Fault.textful recorded = true) (ho : Fault.textful o = true) : Fault.textful (passOn recorded o) = true := by
  cases recorded with
  | error f => exact hr
  | ok u => exact ho

/-! ### Calls -/

section execute

variable {α : Type} (a d : Float) (o : Except Fault α)

/-- A call whose admission lets a fault out of the sink fails with it, and the operation
never runs. -/
theorem execute_of_escape {f : Fault} (he : sink.escape (b.settle a).2 = .error f) :
    b.execute a o d sink = ⟨.error f, (b.settle a).1, (b.settle a).2⟩ := by
  have hv := allow_value b a sink
  rw [he] at hv
  unfold execute
  simp only [allow_eq, he]

/-- A call to an open breaker is refused, and the operation never runs. -/
theorem execute_of_opened (he : sink.escape (b.settle a).2 = .ok ()) (h : (b.settle a).1.state = .opened) :
    b.execute a o d sink =
      ⟨.error (.circuitOpen b.config.key
          (.num (max 0 (b.config.recoveryTimeoutMs - (b.settle a).1.elapsed a)))),
        (b.allow a sink).breaker, (b.settle a).2⟩ := by
  have hv := allow_value b a sink
  rw [he] at hv
  dsimp only at hv
  rw [if_pos h] at hv
  unfold execute
  simp only [hv, allow_events]

/-- A call let through is recorded as it ended, at the time it ended. -/
theorem execute_of_ne_opened (he : sink.escape (b.settle a).2 = .ok ()) (h : (b.settle a).1.state ≠ .opened) :
    b.execute a o d sink =
      let r := (b.settle a).1.complete d o sink
      ⟨passOn r.value o, r.breaker, (b.settle a).2 ++ r.events⟩ := by
  have hv := allow_value b a sink
  rw [he] at hv
  dsimp only at hv
  rw [if_neg h] at hv
  unfold execute
  simp only [hv, allow_breaker_of_ne_opened b a sink h, allow_events]

end execute

/-! ### Sinks that let nothing out

Through a sink whose thrown values all have a text, every operation is the one with a
sink that takes every event (and so is every step through it, `Step.through_of_tame`). -/

section tame

variable {sink : Sink} (h : sink.Tame)

include h

theorem allow_of_tame : b.allow now sink = b.allow now := by
  simp only [allow_eq, Sink.escape_of_tame h, Sink.escape_quiet]

theorem succeed_of_tame : b.succeed now sink = b.succeed now := by
  unfold succeed
  simp only [Sink.escape_of_tame h, Sink.escape_quiet]

theorem recordFailure_of_tame (f : Fault) : b.recordFailure now f sink = b.recordFailure now f := by
  unfold recordFailure moved
  simp only [Sink.escape_of_tame h, Sink.escape_quiet]

theorem complete_of_tame {α : Type} (o : Except Fault α) : b.complete now o sink = b.complete now o := by
  cases o with
  | ok a => exact succeed_of_tame b now h
  | error f =>
    simp only [complete_error, fail_eq]
    split
    · exact recordFailure_of_tame b now h f
    · rfl

theorem execute_of_tame {α : Type} (o : Except Fault α) (d : Float) :
    b.execute now o d sink = b.execute now o d := by
  unfold execute
  simp only [allow_of_tame b now h, complete_of_tame _ d h]

theorem snapshot_of_tame : b.snapshot now sink = b.snapshot now := by
  unfold snapshot
  simp only [Sink.escape_of_tame h, Sink.escape_quiet]

end tame

/-! ### Reset -/

@[simp] theorem reset_state : (b.reset now).1.state = .closed := by
  by_cases h : b.state = .closed <;> simp [reset, h]

@[simp] theorem reset_config : (b.reset now).1.config = b.config := by
  by_cases h : b.state = .closed <;> simp [reset, h]

theorem reset_lastChange :
    (b.reset now).1.lastChange = if b.state = .closed then b.lastChange else now := by
  by_cases h : b.state = .closed <;> simp [reset, h]

/-- A reset clears both streaks and keeps every tally. -/
theorem reset_counters :
    (b.reset now).1.stats.counters =
      { b.stats.counters with consecutiveFailures := 0, consecutiveSuccesses := 0 } := by
  by_cases h : b.state = .closed <;> simp [reset, h, Stats.counters]

end Breaker

end LaneGate.Breaker
