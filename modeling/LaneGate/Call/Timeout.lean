import LaneGate.Call.Timer
/-!
# Watching a call with a timeout

A call made under a timeout gets a signal of its own, aborted when the timeout fires or
the parent signal aborts. Its result is the first of three things to happen: the call
settling, the timeout, the parent's abort. The watch is a state that each of them
changes through a handler of its own (`Watch.step`); every handler first asks whether
it has settled the call already, and the one that settles it also stops the watch,
clearing the timer and removing the listener on the parent signal. A parent signal
already aborted when the call is made gives the result at once, and the call is not
made (`withTimeout`).

A call may also throw as it is made, before it hands back anything to wait on. The
result then fails with what it threw, but no handler ran: the flag stays down, the
timer stays set and the listener attached, so a later timeout or abort of the parent
still aborts the call's signal.

For a call whose timings are known, `schedule` lists what happens in the order it
happens: a call that settles at once comes before every timer, timers come by their
delays, and of equal delays the one set first comes first (the parent's, then the
timeout, then the call's own).
-/

namespace LaneGate

/-- What can happen to a watched call once it has been made. -/
inductive Happening where
  /-- The call settled, with a value or an error. -/
  | settled (outcome : Except Fault Json)
  /-- The call threw as it was made, before giving anything to wait on. -/
  | threw (error : Fault)
  /-- The timer of the timeout fired. -/
  | timerFired
  /-- The parent signal aborted, with this reason. -/
  | parentAborted (reason : Fault)

/-- The parent signal of a call, as it stands when the call is made. -/
inductive Parent where
  /-- There is no parent signal. -/
  | absent
  /-- The parent signal has not aborted yet. -/
  | pending
  /-- The parent signal has aborted already, with this reason. -/
  | aborted (reason : Fault)

/-- Whether the parent signal can abort the call later. -/
def Parent.canAbort : Parent → Bool
  | .pending => true
  | _ => false

/-- The state of a watch. -/
structure Watch where
  /-- What the result settled with, once it has; the first to settle it stays. -/
  outcome : Option (Except Fault Json)
  /-- A handler has settled the call; the handlers then do nothing more. -/
  settled : Bool
  /-- The reason the call's own signal was aborted with, once it was. -/
  aborted : Option Fault
  /-- The timer of the timeout is still set. -/
  timerSet : Bool
  /-- The listener on the parent signal is still attached. -/
  listening : Bool

namespace Watch

/-- Just after the call was made: the timer is set, and the listener is attached when
the parent signal can abort. -/
def start (parent : Parent) : Watch := ⟨none, false, none, true, parent.canAbort⟩

/-- Stops watching: raises the flag, clears the timer and removes the listener. -/
def cleanup (w : Watch) : Watch := { w with settled := true, timerSet := false, listening := false }

/-- The call settled: unless the call was settled already, the watch stops and the
result takes the call's outcome. -/
def settle (o : Except Fault Json) (w : Watch) : Watch :=
  if w.settled then w else { w.cleanup with outcome := w.outcome.or (some o) }

/-- The timeout or the parent stops the call: unless the call was settled already, the
watch stops, the call's signal is aborted with `reason` and the result fails with it.
A signal keeps the reason it was first aborted with, and a result the first outcome it
took. -/
def fail (reason : Fault) (w : Watch) : Watch :=
  if w.settled then w
  else { w.cleanup with outcome := w.outcome.or (some (.error reason)), aborted := w.aborted.or (some reason) }

/-- One happening. A cleared timer does not fire and a removed listener hears nothing;
a call that throws fails the result without any handler running. -/
def step (label : Json) (timeoutMs : Float) (w : Watch) : Happening → Watch
  | .settled o => w.settle o
  | .threw e => { w with outcome := w.outcome.or (some (.error e)) }
  | .timerFired => if w.timerSet then w.fail (.callTimeout label (.num timeoutMs)) else w
  | .parentAborted r => if w.listening then w.fail r else w

/-- The watch after the happenings `hs`, in order. -/
def run (label : Json) (timeoutMs : Float) (w : Watch) (hs : List Happening) : Watch :=
  hs.foldl (step label timeoutMs) w

end Watch

/-- A watched call: whether the call was made, and the watch after what happened. -/
structure Timed where
  called : Bool
  watch : Watch

/-- Makes a call under a timeout of `timeoutMs` ms named `label`, and under the parent
signal if there is one, through the happenings `hs` after the call was made. -/
def withTimeout (label : Json) (timeoutMs : Float) (parent : Parent) (hs : List Happening) :
    Timed :=
  match parent with
  | .aborted reason => ⟨false, ⟨some (.error reason), true, some reason, false, false⟩⟩
  | _ => ⟨true, (Watch.start parent).run label timeoutMs hs⟩

/-- Puts a happening at time `t` among happenings ordered by time, after those at the
same time. -/
def insertAt (t : Float) (h : Happening) : List (Float × Happening) → List (Float × Happening)
  | [] => [(t, h)]
  | (t', h') :: rest => if t < t' then (t, h) :: (t', h') :: rest else (t', h') :: insertAt t h rest

/-- What happens to a call that settles as `op` says with `outcome`, under a timeout of
`timeoutMs` ms and a parent that aborts with `reason` after `parentIn` ms, in the order
it happens. -/
def schedule (op : Settling) (outcome : Except Fault Json) (timeoutMs : Float)
    (parentIn : Option Float) (reason : Fault) : List Happening :=
  let timers := insertAt (timerDelay timeoutMs) .timerFired
    ((parentIn.map fun d => [(d, Happening.parentAborted reason)]).getD [])
  match op with
  | .immediately => .settled outcome :: timers.map Prod.snd
  | .after ms => (insertAt (timerDelay ms) (.settled outcome) timers).map Prod.snd
  | .never => timers.map Prod.snd

end LaneGate
