import LaneGate.Proofs.Breaker.Steps
/-!
# What one call through a breaker does

A call through a breaker has one of four effects, decided by the breaker's state once
the call's admission has looked at it, by how the operation ended, and by the failure
policy:

* **rejected**: the breaker, once looked at, is open. The operation never runs (the
  call's answer does not depend on it), the refusal is counted and nothing else
  changes, and the call fails with `CircuitOpenError`.
* **success**: one more completed call and one more success, and the operation's value
  is the call's answer.
* **counted failure**: the policy counts the fault: one more completed call and one
  more failure, and the fault is the call's answer.
* **uncounted failure**: the policy does not count the fault: the breaker stays as the
  admission's look left it, and the fault is the call's answer.

`Breaker.execute` stands for the three ways of calling through a breaker: an
asynchronous call, a synchronous one (which throws where the other rejects), and a
wrapped function, which runs its function as the operation of one such call. Each
admits once and records once.

## What is proved

* `Breaker.call_has_one_effect`: a call whose end is recorded at a clock reading that
  is a date, through a breaker whose sink throws only values with a text, whose
  operation fails (if it fails) with a value that has a text, has the effect
  `Breaker.effectOf` gives it and no other; a rejected call answers the same whatever
  the operation would have done.
* `Breaker.recording_fault_replaces_answer`: the provisos are needed. A success that
  ends past the last date is counted, but the call then fails with `invalidTime`: the
  time of the success cannot be written, and the operation's value is lost. A counted
  failure whose value has no text is counted, but the call fails with the `TypeError`
  of writing it down, not with that value.
-/

namespace LaneGate.Breaker

/-- The four effects of a call through a breaker. -/
inductive Effect where
  /-- Refused by an open breaker. -/
  | rejected
  /-- The operation returned a value. -/
  | success
  /-- The operation failed with a fault the policy counts. -/
  | countedFailure
  /-- The operation failed with a fault the policy does not count. -/
  | uncountedFailure
  deriving DecidableEq, Repr

/-- The call tallies of a breaker's counters: completed calls, successes, counted
failures and refusals. -/
def Stats.tallies (s : Stats) : Nat × Nat × Nat × Nat :=
  (s.totalCalls, s.successfulCalls, s.failedCalls, s.rejectedCalls)

variable {α : Type}

/-- The breaker after a refusal: one more refused call, and nothing else. -/
def Breaker.refuse (b : Breaker) : Breaker :=
  { b with stats := { b.stats with rejectedCalls := b.stats.rejectedCalls + 1 } }

/-- The effect of a call let through, as its operation ended and as the policy counts
its fault. -/
def Effect.ofOutcome (p : FailurePolicy) : Except Fault α → Effect
  | .ok _ => .success
  | .error f => if p.counts f then .countedFailure else .uncountedFailure

/-- The effect of a call let through (or not) at `admitAt` whose operation ends as
`o`: refused when the breaker is open once looked at, otherwise as the operation
ended. -/
def Breaker.effectOf (b : Breaker) (admitAt : Float) (o : Except Fault α) : Effect :=
  if (b.settle admitAt).1.state = .opened then .rejected else Effect.ofOutcome b.config.policy o

/-- What an effect does: how the call's step `s` answers and leaves the breaker `b`,
for a call let through (or not) at `admitAt` whose operation ends as `o`. -/
def Effect.Does (b : Breaker) (admitAt : Float) (o : Except Fault α) :
    Effect → Step (Except Fault α) → Prop
  | .rejected, s =>
    s.value = .error (.circuitOpen b.config.key
        (.num (max 0 (b.config.recoveryTimeoutMs - b.elapsed admitAt)))) ∧
      s.breaker = b.refuse ∧ s.events = []
  | .success, s =>
    (∃ v, o = .ok v) ∧ s.value = o ∧
      s.breaker.stats.tallies =
        (b.stats.totalCalls + 1, b.stats.successfulCalls + 1, b.stats.failedCalls, b.stats.rejectedCalls)
  | .countedFailure, s =>
    (∃ f, o = .error f ∧ b.config.policy.counts f = true) ∧ s.value = o ∧
      s.breaker.stats.tallies =
        (b.stats.totalCalls + 1, b.stats.successfulCalls, b.stats.failedCalls + 1, b.stats.rejectedCalls)
  | .uncountedFailure, s =>
    (∃ f, o = .error f ∧ b.config.policy.counts f = false) ∧ s.value = o ∧
      s.breaker = (b.settle admitAt).1 ∧ s.events = (b.settle admitAt).2

theorem Stats.tallies_of_counters {s : Stats} {k : Counters} (h : s.counters = k) :
    s.tallies = (k.totalCalls, k.successfulCalls, k.failedCalls, k.rejectedCalls) := by
  rw [← h]
  rfl

/-! ### The effects exclude each other -/

section Does

variable {b : Breaker} {admitAt : Float} {o : Except Fault α} {s : Step (Except Fault α)}

/-- Only a refusal counts a refused call. -/
theorem Effect.Does.rejectedCalls {e : Effect} (h : e.Does b admitAt o s) :
    s.breaker.stats.rejectedCalls = b.stats.rejectedCalls + if e = .rejected then 1 else 0 := by
  cases e with
  | rejected => rw [h.2.1]; rfl
  | success => simpa [Stats.tallies] using congrArg (·.2.2.2) h.2.2
  | countedFailure => simpa [Stats.tallies] using congrArg (·.2.2.2) h.2.2
  | uncountedFailure =>
    rw [h.2.2.1, if_neg (by decide)]
    exact congrArg Counters.rejectedCalls (Breaker.settle_counters b admitAt)

/-- An effect other than a refusal is the one the operation's outcome calls for. -/
theorem Effect.Does.eq_ofOutcome {e : Effect} (h : e.Does b admitAt o s) (hr : e ≠ .rejected) :
    e = Effect.ofOutcome b.config.policy o := by
  cases e with
  | rejected => exact absurd rfl hr
  | success => obtain ⟨⟨v, rfl⟩, -⟩ := h; rfl
  | countedFailure => obtain ⟨⟨f, rfl, hf⟩, -⟩ := h; simp [Effect.ofOutcome, hf]
  | uncountedFailure => obtain ⟨⟨f, rfl, hf⟩, -⟩ := h; simp [Effect.ofOutcome, hf]

/-- No call has two effects. -/
theorem Effect.Does.unique {e₁ e₂ : Effect} (h₁ : e₁.Does b admitAt o s) (h₂ : e₂.Does b admitAt o s) :
    e₁ = e₂ := by
  have hr₁ := h₁.rejectedCalls
  have hr₂ := h₂.rejectedCalls
  by_cases r₁ : e₁ = .rejected <;> by_cases r₂ : e₂ = .rejected
  · rw [r₁, r₂]
  · simp [r₁, r₂] at hr₁ hr₂; omega
  · simp [r₁, r₂] at hr₁ hr₂; omega
  · rw [h₁.eq_ofOutcome r₁, h₂.eq_ofOutcome r₂]

end Does

namespace Breaker

variable {b : Breaker} {t : Float}

/-! ### A look before a call -/

@[simp] theorem settle_totalCalls : (b.settle t).1.stats.totalCalls = b.stats.totalCalls :=
  congrArg Counters.totalCalls (settle_counters b t)

@[simp] theorem settle_successfulCalls :
    (b.settle t).1.stats.successfulCalls = b.stats.successfulCalls :=
  congrArg Counters.successfulCalls (settle_counters b t)

@[simp] theorem settle_failedCalls : (b.settle t).1.stats.failedCalls = b.stats.failedCalls :=
  congrArg Counters.failedCalls (settle_counters b t)

@[simp] theorem settle_rejectedCalls : (b.settle t).1.stats.rejectedCalls = b.stats.rejectedCalls :=
  congrArg Counters.rejectedCalls (settle_counters b t)

/-- A breaker that a look finds open was open before, and the look left it as it was. -/
theorem settle_of_opened (h : (b.settle t).1.state = .opened) : b.settle t = (b, []) := by
  have hr : b.recovered t = false := by
    cases hr : b.recovered t with
    | false => rfl
    | true => simp [hr] at h
  simp [settle_eq, hr]

/-- An admission that a look finds open refuses the call, counts the refusal and
changes nothing else; the look emits nothing, so nothing gets out of the sink. -/
theorem allow_of_opened (sink : Sink) (h : (b.settle t).1.state = .opened) :
    b.allow t sink = ⟨.error (.circuitOpen b.config.key
      (.num (max 0 (b.config.recoveryTimeoutMs - b.elapsed t)))), b.refuse, []⟩ := by
  have hs := settle_of_opened h
  have ho : b.state = .opened := by rw [hs] at h; exact h
  unfold allow
  rw [hs]
  simp [ho, refuse, elapsed]

/-! ### One call -/

variable {a d : Float} {o : Except Fault α} {sink : Sink}

/-- A refused call answers with `CircuitOpenError` whatever its operation does. -/
theorem execute_of_rejected (h : (b.settle a).1.state = .opened) :
    b.execute a o d sink = ⟨.error (.circuitOpen b.config.key
      (.num (max 0 (b.config.recoveryTimeoutMs - b.elapsed a)))), b.refuse, []⟩ := by
  unfold execute
  rw [allow_of_opened sink h]

/-- A call has the effect `effectOf` gives it, when its end is recorded at a date, its
fault has a text and nothing gets out of the sink. -/
theorem execute_does (hd : isDate d = true) (hsink : sink.Tame)
    (ho : ∀ f, o = .error f → f.hasText = true) :
    (b.effectOf a o).Does b a o (b.execute a o d sink) := by
  by_cases h : (b.settle a).1.state = .opened
  · rw [effectOf, if_pos h, execute_of_rejected h]
    exact ⟨rfl, rfl, rfl⟩
  · rw [effectOf, if_neg h, execute_of_ne_opened b sink a d o (Sink.escape_of_tame hsink _) h]
    cases o with
    | ok v =>
      refine ⟨⟨v, rfl⟩, by simp [complete_ok, succeed_value, hd, Sink.escape_of_tame hsink], ?_⟩
      rw [complete_ok, Stats.tallies_of_counters (succeed_counters _ d sink)]
      simp
    | error f =>
      have hcfg : (b.settle a).1.config = b.config := settle_config b a
      by_cases hf : b.config.policy.counts f = true
      · have hr : (b.settle a).1.complete d (.error f : Except Fault α) sink =
            (b.settle a).1.recordFailure d f sink := by
          rw [complete_error, fail_eq, hcfg, if_pos hf]
        simp only [Effect.ofOutcome, hf, if_true]
        refine ⟨⟨f, rfl, hf⟩, ?_, ?_⟩
        · simp [hr, recordFailure_value, hd, ho f rfl, Sink.escape_of_tame hsink]
        · rw [hr, Stats.tallies_of_counters (recordFailure_counters _ d sink f)]
          simp
      · have hr : (b.settle a).1.complete d (.error f : Except Fault α) sink =
            ⟨.ok (), (b.settle a).1, []⟩ := by
          rw [complete_error, fail_eq, hcfg, if_neg hf]
        simp only [Effect.ofOutcome, hf, Bool.false_eq_true, if_false]
        refine ⟨⟨f, rfl, by simpa using hf⟩, ?_⟩
        simp [hr]

/-- **One call, one effect.** A call through a breaker whose sink throws only values
with a text, whose end is recorded at a clock reading that is a date and whose
operation, if it fails, fails with a value that has a text, has exactly one of the
four effects: the one `effectOf` gives it, from the breaker's state once looked at,
the operation's outcome and the failure policy. A refused call answers the same
whatever its operation would have done and whenever it would have ended, so the
operation is never run. -/
theorem call_has_one_effect (b : Breaker) (a d : Float) (o : Except Fault α) (sink : Sink)
    (hd : isDate d = true) (hsink : sink.Tame) (ho : ∀ f, o = .error f → f.hasText = true) :
    (b.effectOf a o).Does b a o (b.execute a o d sink) ∧
      (∀ e : Effect, e.Does b a o (b.execute a o d sink) → e = b.effectOf a o) ∧
      (b.effectOf a o = .rejected →
        ∀ (o' : Except Fault α) (d' : Float), b.execute a o' d' sink = b.execute a o d sink) := by
  have hdoes := execute_does (b := b) (a := a) hd hsink ho
  refine ⟨hdoes, fun e he => he.unique hdoes, fun hr o' d' => ?_⟩
  have h : (b.settle a).1.state = .opened := by
    by_cases hn : (b.settle a).1.state = .opened
    · exact hn
    · rw [effectOf, if_neg hn] at hr
      cases o with
      | ok v => cases hr
      | error f => simp only [Effect.ofOutcome] at hr; split at hr <;> cases hr
  rw [execute_of_rejected h, execute_of_rejected h]

/-- A breaker that opened 100 ms ago, waiting 30 s, with a sink that throws on every
event, refuses a call: the refusal is its one effect, whatever the operation would
have done. -/
theorem call_has_one_effect_when_open :
    let b : Breaker := ⟨⟨none, 5, 2, 30000, .standard, by decide, by decide⟩, .opened, 1773144000000, {}⟩
    let o : Except Fault Unit := .ok ()
    isDate 1773144000100 = true ∧ Sink.failing.Tame ∧ (∀ f, o = .error f → f.hasText = true) ∧
      ((b.effectOf 1773144000100 o).Does b 1773144000100 o
          (b.execute 1773144000100 o 1773144000100 .failing) ∧
        (∀ e : Effect, e.Does b 1773144000100 o (b.execute 1773144000100 o 1773144000100 .failing) →
          e = b.effectOf 1773144000100 o) ∧
        (b.effectOf 1773144000100 o = .rejected → ∀ (o' : Except Fault Unit) (d' : Float),
          b.execute 1773144000100 o' d' .failing = b.execute 1773144000100 o 1773144000100 .failing)) :=
  have ho : ∀ f, (.ok () : Except Fault Unit) = .error f → f.hasText = true := fun _ h => by cases h
  ⟨by decide, Sink.failing_tame, ho,
    call_has_one_effect _ _ _ _ _ (by decide) Sink.failing_tame ho⟩

/-- **A failed recording replaces the answer.** A new breaker whose clock stands one
millisecond past the last date lets a call through, and the call succeeds: the
success is counted, but the call does not answer the operation's value, as a success
must, since the time of the success cannot be written as a date. And a call that
fails at a date with a value that has no text is counted as a failure, but does not
answer that value, as a counted failure must: writing it down throws first. -/
theorem recording_fault_replaces_answer :
    (let b := create ⟨none, 5, 2, 30000, .standard, by decide, by decide⟩ 8640000000000001
     let o : Except Fault Unit := .ok ()
     let s := b.execute 8640000000000001 o 8640000000000001
     b.effectOf 8640000000000001 o = .success ∧ s.breaker.stats.successfulCalls = 1 ∧
       ¬ Effect.success.Does b 8640000000000001 o s) ∧
    (let b := create ⟨none, 5, 2, 30000, .standard, by decide, by decide⟩ 1773144000000
     let o : Except Fault Unit := .error .textless
     let s := b.execute 1773144000000 o 1773144000000
     b.effectOf 1773144000000 o = .countedFailure ∧ s.breaker.stats.failedCalls = 1 ∧
       s.value = .error .wrongType ∧ ¬ Effect.countedFailure.Does b 1773144000000 o s) :=
  ⟨⟨by decide, by decide, fun h => absurd (congrArg Except.toBool h.2.1) (by decide)⟩,
    ⟨by decide, by decide, rfl, fun h => by
      have hv : (.error .wrongType : Except Fault Unit) = .error .textless := h.2.1
      cases hv⟩⟩

end Breaker

end LaneGate.Breaker
