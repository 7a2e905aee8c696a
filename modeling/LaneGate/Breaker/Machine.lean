import LaneGate.Breaker.Config
import LaneGate.Clock
/-!
# The circuit breaker

A breaker guards calls to one dependency. Closed, it lets every call through and counts
consecutive counted failures; at the failure threshold it opens. Open, it refuses
every call until the waiting time has passed since it opened; the first look at
its state after that finds it half-open. Half-open, it lets calls through: a counted
failure opens it again, and the success threshold of consecutive successes closes
it. A manual reset closes it from any state and clears both streaks.

A call is two steps: `allow` (which may refuse it) and, when the call is over,
`succeed` or `fail`. Time passes between them, so other calls' steps may come in
between. Every change of state, and every reset, emits an event carrying the
counters after the change.

Events are handed to the breaker's sink (`Sink`) at once, inside the operation. A
value the sink throws is caught and written to the log by its text; a value with no
text makes that conversion throw a `TypeError`, which gets out of the operation
(`Sink.escape`) after the change of state and cuts short what the operation had left
to do. Writing a counted failure to the log converts the failure's own value the same
way, after it is counted and before any change of state it causes. Operations take
the sink as their last argument; by default it is one that takes every event
(`Sink.quiet`), which is what the service's own breakers do: their events are stored,
and a failure to store one has a text.

Time is a number of milliseconds, a double: the clock a breaker reads may stand
between two whole milliseconds, and waits are measured by subtracting doubles.
A time is written down as a date (the last success or failure, an event's time,
the last change of state in a snapshot) only when it names one (`Clock.clip?`).
Recording a call at a time that is no date counts the call and then fails with
`invalidTime`, before the time is written and before any change of state; an
event at such a time is made but never heard; a snapshot then fails the same way
when the last change of state is no date.
-/

namespace LaneGate.Breaker

/-- The state of a circuit. -/
inductive State where
  /-- Calls pass. -/
  | closed
  /-- Calls are refused. -/
  | opened
  /-- Trial calls pass. -/
  | halfOpen
  deriving DecidableEq, Repr, Inhabited

/-- The name of a state. -/
def State.name : State → String
  | .closed => "closed"
  | .opened => "open"
  | .halfOpen => "half_open"

/-- The counters of a breaker. Times are instants in milliseconds. -/
structure Stats where
  /-- Completed calls, successful or counted as failed. -/
  totalCalls : Nat := 0
  /-- Successful calls. -/
  successfulCalls : Nat := 0
  /-- Calls that failed with a counted fault. -/
  failedCalls : Nat := 0
  /-- Calls refused while open. -/
  rejectedCalls : Nat := 0
  /-- Changes of state, resets out of a non-closed state included. -/
  stateTransitions : Nat := 0
  /-- Counted failures since the last success. -/
  consecutiveFailures : Nat := 0
  /-- Successes since the last counted failure. -/
  consecutiveSuccesses : Nat := 0
  /-- When the last counted failure happened. -/
  lastFailureAt : Option Float := none
  /-- When the last success happened. -/
  lastSuccessAt : Option Float := none
  deriving Repr, Inhabited

/-- What an event reports. -/
inductive EventKind where
  /-- An automatic change of state. -/
  | transition
  /-- A manual reset. -/
  | reset
  deriving DecidableEq, Repr

/-- The name of an event kind. -/
def EventKind.name : EventKind → String
  | .transition => "transition"
  | .reset => "reset"

/-- A change of state or a reset, as emitted. -/
structure Event where
  /-- Transition or reset. -/
  kind : EventKind
  /-- The breaker's name, as given. -/
  breaker : Key
  /-- The state before. -/
  fromState : State
  /-- The state after. -/
  toState : State
  /-- Why. -/
  reason : String
  /-- The counters after the change. -/
  stats : Stats
  /-- When. -/
  happenedAt : Float

/-- What an event sink does with an event handed to it: takes it (`none`), or throws
a value. -/
structure Sink where
  /-- The value thrown on an event, if any. -/
  throws : Event → Option Fault

namespace Sink

/-- A sink that takes every event. A breaker with no sink acts as with this one. -/
def quiet : Sink := ⟨fun _ => none⟩

/-- What gets out of handing events to a sink, in order: a value the sink throws is
caught and logged by its text, so only a value with no text gets out, as the
`TypeError` of converting it. -/
def escape (s : Sink) : List Event → Except Fault Unit
  | [] => .ok ()
  | e :: es =>
    match (s.throws e).map Fault.describe with
    | some (.error t) => .error t
    | _ => s.escape es

/-- A sink that throws an error on every event. -/
def failing : Sink := ⟨fun _ => some (.plain (Text.ofString "sink failed"))⟩

/-- A sink whose thrown values all have a text: nothing ever gets out of it. -/
def Tame (s : Sink) : Prop := ∀ e f, s.throws e = some f → f.hasText = true

end Sink

/-- A breaker: its settings, state, when the state last changed, and counters. -/
structure Breaker where
  /-- The settings. -/
  config : Config
  /-- The state as last settled. -/
  state : State
  /-- When the state last changed. -/
  lastChange : Float
  /-- The counters. -/
  stats : Stats

/-- The answer of an operation, the breaker after it, and the events it emitted. -/
structure Step (α : Type) where
  /-- The answer. -/
  value : α
  /-- The breaker after the operation. -/
  breaker : Breaker
  /-- The events emitted, in order. -/
  events : List Event

/-- An operation that ends by handing its events to a sink, as a caller sees it: its
answer, unless a fault got out of the sink. -/
def Step.through {α : Type} (s : Step α) (sink : Sink) : Step (Except Fault α) :=
  ⟨(sink.escape s.events).map fun _ => s.value, s.breaker, s.events⟩

namespace Breaker

/-- A new, closed breaker. -/
def create (config : Config) (now : Float) : Breaker := ⟨config, .closed, now, {}⟩

/-- The breaker's name as a text. -/
def name (b : Breaker) : String := b.config.label

/-- The name a breaker is filed under. -/
def key (b : Breaker) : Key := b.config.key

/-- Whether a time can be written down as a date. -/
def isDate (now : Float) : Bool := (Clock.clip? now).isSome

/-- The events heard of one emitted at a time: none when the time is no date. -/
def heard (now : Float) (e : Event) : List Event := if isDate now then [e] else []

/-- Moves to another state, counting the change and emitting a transition event;
moving to the current state does nothing. -/
def transition (b : Breaker) (now : Float) (next : State) (reason : String) :
    Breaker × List Event :=
  if b.state = next then (b, [])
  else
    let stats := { b.stats with stateTransitions := b.stats.stateTransitions + 1 }
    ({ b with state := next, lastChange := now, stats := stats },
      heard now ⟨.transition, b.config.key, b.state, next, reason, stats, now⟩)

/-- How long the breaker has been in its state, as a number of milliseconds. -/
def elapsed (b : Breaker) (now : Float) : Float := now - b.lastChange

/-- Whether an open breaker has waited long enough to let a trial through. -/
def recovered (b : Breaker) (now : Float) : Bool :=
  b.state == .opened && b.elapsed now ≥ b.config.recoveryTimeoutMs

/-- Looking at the state: an open breaker that has waited long enough becomes
half-open. -/
def settle (b : Breaker) (now : Float) : Breaker × List Event :=
  if b.recovered now then b.transition now .halfOpen "recovery timeout elapsed" else (b, [])

/-- The state, after settling. -/
def readState (b : Breaker) (now : Float) : Step State :=
  let (b, evs) := b.settle now
  ⟨b.state, b, evs⟩

/-- How long until an open circuit lets a trial call through (at least zero), for a
settled breaker; zero in any other state. -/
def remainingOf (b : Breaker) (now : Float) : Float :=
  if b.state = .opened then max 0 (b.config.recoveryTimeoutMs - b.elapsed now) else 0

/-- The time until a trial call is let through, after settling. -/
def remainingMs (b : Breaker) (now : Float) : Step Float :=
  let (b, evs) := b.settle now
  ⟨b.remainingOf now, b, evs⟩

/-- Asks to let a call through. An open breaker (after settling) refuses it with the
time left, and counts the refusal; a fault that gets out of the sink while settling
ends the request before that. -/
def allow (b : Breaker) (now : Float) (sink : Sink := .quiet) : Step (Except Fault Unit) :=
  let (b, evs) := b.settle now
  match sink.escape evs with
  | .error f => ⟨.error f, b, evs⟩
  | .ok () =>
    if b.state = .opened then
      let b := { b with stats := { b.stats with rejectedCalls := b.stats.rejectedCalls + 1 } }
      ⟨.error (.circuitOpen b.config.key (.num (max 0 (b.config.recoveryTimeoutMs - b.elapsed now)))), b, evs⟩
    else ⟨.ok (), b, evs⟩

/-- A breaker after a move and its events, as a step that ends with the move: it
answers what gets out of the sink. -/
def moved (r : Breaker × List Event) (sink : Sink := .quiet) : Step (Except Fault Unit) :=
  ⟨sink.escape r.2, r.1, r.2⟩

/-- Records a successful call. A half-open breaker that reaches the success
threshold closes and clears both streaks, unless a fault gets out of the sink when
the change of state is emitted. -/
def succeed (b : Breaker) (now : Float) (sink : Sink := .quiet) : Step (Except Fault Unit) :=
  let s := b.stats
  let s := { s with
    totalCalls := s.totalCalls + 1
    successfulCalls := s.successfulCalls + 1
    consecutiveSuccesses := s.consecutiveSuccesses + 1
    consecutiveFailures := 0 }
  let b := { b with stats := s }
  if !isDate now then ⟨.error .invalidTime, b, []⟩
  else
    let b := { b with stats := { s with lastSuccessAt := some now } }
    if b.state = .halfOpen ∧ s.consecutiveSuccesses ≥ b.config.successThreshold then
      let (b, evs) := b.transition now .closed "success threshold reached"
      match sink.escape evs with
      | .error f => ⟨.error f, b, evs⟩
      | .ok () =>
        ⟨.ok (), { b with stats := { b.stats with consecutiveSuccesses := 0, consecutiveFailures := 0 } }, evs⟩
    else ⟨.ok (), b, []⟩

/-- Records a counted failure. A half-open breaker opens again; a closed one opens
at the failure threshold. The failure is written to the log by its text after it is
counted: a failure with no text ends the recording there, with no change of state. -/
def recordFailure (b : Breaker) (now : Float) (f : Fault) (sink : Sink := .quiet) :
    Step (Except Fault Unit) :=
  let s := b.stats
  let s := { s with
    totalCalls := s.totalCalls + 1
    failedCalls := s.failedCalls + 1
    consecutiveFailures := s.consecutiveFailures + 1
    consecutiveSuccesses := 0 }
  let b := { b with stats := s }
  if !isDate now then ⟨.error .invalidTime, b, []⟩
  else
    let b := { b with stats := { s with lastFailureAt := some now } }
    match f.describe with
    | .error t => ⟨.error t, b, []⟩
    | .ok _ =>
      if b.state = .halfOpen then moved (b.transition now .opened "failure while half-open") sink
      else if b.state = .closed ∧ s.consecutiveFailures ≥ b.config.failureThreshold then
        moved (b.transition now .opened
          ("failure threshold " ++ Decimal.numberText b.config.failureThreshold.toFloat ++ " reached")) sink
      else ⟨.ok (), b, []⟩

/-- Records a failed call: a fault the policy counts is a failure, any other fault
leaves the breaker as it is. -/
def fail (b : Breaker) (now : Float) (f : Fault) (sink : Sink := .quiet) : Step (Except Fault Unit) :=
  if b.config.policy.counts f then b.recordFailure now f sink else ⟨.ok (), b, []⟩

/-- Records how a call it let through ended: a value is a success, a fault goes to
`fail`. -/
def complete (b : Breaker) (now : Float) (outcome : Except Fault α) (sink : Sink := .quiet) :
    Step (Except Fault Unit) :=
  match outcome with
  | .ok _ => b.succeed now sink
  | .error f => b.fail now f sink

/-- What a call let through answers once its end is recorded: the fault of the
recording, if it failed, else what the operation did. -/
def passOn (recorded : Except Fault Unit) (outcome : Except Fault α) : Except Fault α :=
  match recorded with
  | .error f => .error f
  | .ok () => outcome

@[simp] theorem passOn_ok (outcome : Except Fault α) : passOn (.ok ()) outcome = outcome := rfl

/-- A call through the breaker, let through at one time and ended at another: refused
while open (the operation then never runs), otherwise recorded as it ended. The call
answers what the operation did, unless recording it failed. -/
def execute (b : Breaker) (admitAt : Float) (outcome : Except Fault α) (doneAt : Float)
    (sink : Sink := .quiet) : Step (Except Fault α) :=
  let s := b.allow admitAt sink
  match s.value with
  | .error f => ⟨.error f, s.breaker, s.events⟩
  | .ok () =>
    let r := s.breaker.complete doneAt outcome sink
    ⟨passOn r.value outcome, r.breaker, s.events ++ r.events⟩

/-- Closes the breaker from any state (counting a change if it was not closed),
clears both streaks and emits a reset event, last (so a fault that gets out of the
sink, `Step.through`, comes after everything else). -/
def reset (b : Breaker) (now : Float) : Breaker × List Event :=
  let previous := b.state
  let b :=
    if previous = .closed then b
    else { b with state := .closed, lastChange := now,
                  stats := { b.stats with stateTransitions := b.stats.stateTransitions + 1 } }
  let b := { b with stats := { b.stats with consecutiveFailures := 0, consecutiveSuccesses := 0 } }
  (b, heard now ⟨.reset, b.config.key, previous, .closed, "manual reset", b.stats, now⟩)

end Breaker

/-- What a breaker shows about itself. -/
structure Snapshot where
  /-- The breaker's name, as given. -/
  name : Key
  /-- The settled state. -/
  state : State
  /-- The counters. -/
  stats : Stats
  /-- When the state last changed. -/
  lastStateChangeAt : Float
  /-- The time until a trial call is let through. -/
  remainingMs : Float
  /-- The three numeric settings. -/
  failureThreshold : Float
  /-- The success threshold. -/
  successThreshold : Float
  /-- The waiting time of an open circuit. -/
  recoveryTimeoutMs : Float

/-- The snapshot of a breaker, after settling; it fails with what gets out of the sink
while settling, and then when the last change of state is no date. -/
def Breaker.snapshot (b : Breaker) (now : Float) (sink : Sink := .quiet) : Step (Except Fault Snapshot) :=
  let (b, evs) := b.settle now
  let snap : Except Fault Snapshot :=
    match sink.escape evs with
    | .error f => .error f
    | .ok () =>
      if Breaker.isDate b.lastChange then
        .ok ⟨b.config.key, b.state, b.stats, b.lastChange, b.remainingOf now,
          b.config.failureThreshold.toFloat, b.config.successThreshold.toFloat, b.config.recoveryTimeoutMs⟩
      else .error .invalidTime
  ⟨snap, b, evs⟩

end LaneGate.Breaker
