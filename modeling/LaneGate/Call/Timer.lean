import LaneGate.Fault
/-!
# Timers and races

Waiting is measured on a clock of its own, in milliseconds since a call began: it
orders timeouts, deadlines and slow answers, and nothing else (the service's clock
is separate and moves only when told to).

A timer of `ms` milliseconds waits exactly that long when `1 ≤ ms ≤ 2^31 - 1`, and
1 ms otherwise (zero, negative, not a number, or too long). An operation settles
at once, after a delay, or never. A call raced against a timeout and a cancelling
deadline ends with whichever comes first; an operation that settles at once beats
every timer, and when two timers end together the one set first wins (the deadline,
which is set before the timeout, which is set before the operation's own delay).
-/

namespace LaneGate

/-- The longest delay a timer holds, in ms. -/
def maxTimerDelay : Float := 2147483647

/-- How long a timer of `ms` milliseconds actually waits. -/
def timerDelay (ms : Float) : Float :=
  if ms ≥ 1 && ms ≤ maxTimerDelay then ms else 1

/-- When an operation settles, after it starts. -/
inductive Settling where
  /-- At once, before any timer. -/
  | immediately
  /-- After a timer of this many ms. -/
  | after (ms : Float)
  /-- Only when it is cancelled. -/
  | never
  deriving Inhabited

/-- How a race ended. -/
inductive RaceEnd where
  /-- The operation settled first. -/
  | settled
  /-- The timeout fired first. -/
  | timedOut
  /-- The deadline fired first. -/
  | cancelled
  deriving DecidableEq, Repr

/-- Races an operation against a timeout and an optional deadline (in ms from the
start of the race); the winner and how long the race took. -/
def race (op : Settling) (timeoutMs : Float) (deadlineIn : Option Float) : RaceEnd × Float :=
  match op with
  | .immediately => (.settled, 0)
  | _ =>
    let t := timerDelay timeoutMs
    let (firstEnd, first) : RaceEnd × Float := match deadlineIn with
      | some d => if d ≤ t then (.cancelled, d) else (.timedOut, t)
      | none => (.timedOut, t)
    match op with
    | .after ms =>
      let o := timerDelay ms
      if o < first then (.settled, o) else (firstEnd, first)
    | _ => (firstEnd, first)

/-- A deadline on the waiting clock: when it fires, and the fault it cancels with. -/
structure Deadline where
  /-- When it fires, in ms since the call began. -/
  firesAt : Float
  /-- What cancelled operations fail with. -/
  reason : Fault

/-- Whether an optional deadline has fired by `elapsed`. -/
def Deadline.passed (d : Option Deadline) (elapsed : Float) : Bool :=
  match d with
  | some d => d.firesAt ≤ elapsed
  | none => false

/-- The time left before an optional deadline fires. -/
def Deadline.left (d : Option Deadline) (elapsed : Float) : Option Float :=
  d.map (·.firesAt - elapsed)

/-- The waiting clock after a pause of `ms` that a deadline cuts short; a pause of no
time, or one begun after the deadline, ends at once. -/
def pause (ms : Float) (deadline : Option Deadline) (elapsed : Float) : Float :=
  if ms ≤ 0 || Deadline.passed deadline elapsed then elapsed
  else
    let wake := elapsed + timerDelay ms
    match deadline with
    | some d => if d.firesAt ≤ wake then d.firesAt else wake
    | none => wake

end LaneGate
