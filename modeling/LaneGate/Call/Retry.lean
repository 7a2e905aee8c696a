import LaneGate.Call.Timer
import LaneGate.Call.Backoff
/-!
# Retrying a call

A call is tried up to `maxAttempts` times. Before each attempt the deadline is
checked: once it has fired no further attempt is made, and the call fails with the
last fault seen (or the deadline's own reason if there was none). A failed attempt
is retried when the policy allows it and attempts remain, after a backoff pause of
`min(base · 2^(k-1), max)` (never negative) following attempt `k`, which the deadline
cuts short.

Each failure is written to the log by its text before the loop goes on or stops, and
so is the last fault once the loop gives up: a fault with no text makes that
conversion throw a `TypeError`, and the loop then throws it instead of reporting an
outcome.

The attempt is any function of the attempt number, a state and the waiting clock,
so the same loop drives scripted calls and the service's model calls.

The attempt counter is a double. It counts exactly up to `2^53`, where adding one no
longer changes it: a loop allowed more attempts than that never reaches its bound and
goes on calling attempt `2^53`. The loop here follows every run through its first
`2^53` attempts (`counterLimit`), which no run outlasts in practice.
-/

namespace LaneGate

/-- How a call is retried. -/
structure RetryPlan where
  /-- The most attempts, the first included. -/
  maxAttempts : Nat
  /-- The first backoff pause, in ms. -/
  baseDelayMs : Float := 250
  /-- The longest backoff pause, in ms. -/
  maxDelayMs : Float := 4000

/-- The last count the loop's double attempt counter reaches by adding one, `2^53`. -/
def counterLimit : Nat := 9007199254740992

/-- The number of attempts asked for, `max(1, floor(requested))` as a count, followed
up to the counter's limit. Not a number stays not a number under the floor and the
maximum, and no attempt number reaches it, so it allows none. Any other number is
truncated toward zero to a count: truncation and the floor differ only below zero,
where the maximum makes both 1. -/
def attemptsAllowed (requested : Float) : Nat :=
  if requested.isNaN then 0 else max 1 (min requested.toUInt64.toNat counterLimit)

/-- Only a request that is not a number allows no attempt. -/
theorem attemptsAllowed_eq_zero_iff (requested : Float) :
    attemptsAllowed requested = 0 ↔ requested.isNaN = true := by
  unfold attemptsAllowed
  by_cases h : requested.isNaN <;> simp [h]

/-- The plan of the options given, with defaults for those left out: two attempts, a
first pause of 250 ms and a longest pause of 4000 ms. -/
def RetryPlan.ofOptions (maxAttempts baseDelayMs maxDelayMs : Option Float) : RetryPlan where
  maxAttempts := attemptsAllowed (maxAttempts.getD 2)
  baseDelayMs := baseDelayMs.getD 250
  maxDelayMs := maxDelayMs.getD 4000

/-- A retried call's outcome. -/
structure Retried (α : Type) where
  /-- The value, or the last fault (none when no attempt was made and there was no
  reason to report). -/
  result : Except (Option Fault) α
  /-- The attempts made. -/
  attempts : Nat
  /-- The failed attempts with their faults, in order. -/
  failures : List (Nat × Fault)
  /-- The attempts after which the policy was asked whether to go on. -/
  consulted : List Nat

/-- The text a failed call reports: its last fault's message, or `undefined` when
there is no fault to report. -/
def Retried.errorText {α : Type} (r : Retried α) : Option Text :=
  match r.result with
  | .ok _ => none
  | .error (some f) => some f.message
  | .error none => some (Text.ofString "undefined")

/-- A loop that gave up with the fault `last` (if any): it reports `r`, unless writing
that fault's text to the log throws. -/
def Retried.reported {α : Type} (last : Option Fault) (r : Retried α) : Except Fault (Retried α) :=
  match last.map Fault.describe with
  | some (.error t) => .error t
  | _ => .ok r

/-- The retry loop from attempt `k`, with `fuel` attempts left: what it reports, or
what it throws, with the state and waiting clock it ends with. -/
def retryFrom {σ α : Type} (plan : RetryPlan) (shouldRetry : Fault → Nat → Option Bool)
    (deadline : Option Deadline) (attempt : Nat → σ → Float → Except Fault α × σ × Float) :
    Nat → Nat → Option Fault → List (Nat × Fault) → List Nat → σ → Float →
      Except Fault (Retried α) × σ × Float
  | 0, _, last, failures, consulted, s, elapsed =>
    (Retried.reported last ⟨.error last, failures.length, failures, consulted⟩, s, elapsed)
  | fuel + 1, k, last, failures, consulted, s, elapsed =>
    if Deadline.passed deadline elapsed then
      let last := match last with
        | some f => some f
        | none => deadline.map (·.reason)
      (Retried.reported last ⟨.error last, k - 1, failures, consulted⟩, s, elapsed)
    else
      match attempt k s elapsed with
      | (.ok v, s, elapsed) => (.ok ⟨.ok v, k, failures, consulted⟩, s, elapsed)
      | (.error f, s, elapsed) =>
        let failures := failures ++ [(k, f)]
        let asked := shouldRetry f k
        let consulted := if asked.isSome then consulted ++ [k] else consulted
        match f.describe with
        | .error t => (.error t, s, elapsed)
        | .ok _ =>
          if asked == some false || k ≥ plan.maxAttempts || fuel = 0 then
            (.ok ⟨.error (some f), k, failures, consulted⟩, s, elapsed)
          else
            let elapsed := pause (backoffMs (k - 1).toFloat plan.baseDelayMs plan.maxDelayMs) deadline elapsed
            retryFrom plan shouldRetry deadline attempt fuel (k + 1) (some f) failures consulted s elapsed

/-- Runs a call with retries. `shouldRetry` answers `none` when there is no policy
(every fault is retried). -/
def retry {σ α : Type} (plan : RetryPlan) (shouldRetry : Fault → Nat → Option Bool)
    (deadline : Option Deadline) (attempt : Nat → σ → Float → Except Fault α × σ × Float)
    (s : σ) (elapsed : Float := 0) : Except Fault (Retried α) × σ × Float :=
  retryFrom plan shouldRetry deadline attempt plan.maxAttempts 1 none [] [] s elapsed

end LaneGate
