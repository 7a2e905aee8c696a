import LaneGate.Json.Value
import LaneGate.Clock
import LaneGate.Breaker.Registry
import LaneGate.Json.Record
/-!
# Breakers as JSON

The JSON shapes in which breakers are shown: counters, snapshots, events, and the
state and counters of every breaker by name. Instants are written as ISO texts and
an absent instant as `null`; counters are written in the order they are declared.
-/

namespace LaneGate.Wire

/-- An instant as its ISO text. -/
def instant (t : Int) : Json := Json.ofString (Clock.iso t)

/-- An optional instant, `null` when absent. -/
def instant? (t : Option Int) : Json := Json.ofOption instant t

/-- A time value as an ISO text (see `Clock.isoAt`). -/
def instantAt (t : Float) : Json := Json.ofString (Clock.isoAt t)

/-- An optional time value, `null` when absent. -/
def instantAt? (t : Option Float) : Json := Json.ofOption instantAt t

/-- A breaker's counters. -/
def statsJson (s : Breaker.Stats) : Json :=
  .obj [("totalCalls", Json.ofNat s.totalCalls), ("successfulCalls", Json.ofNat s.successfulCalls),
    ("failedCalls", Json.ofNat s.failedCalls), ("rejectedCalls", Json.ofNat s.rejectedCalls),
    ("stateTransitions", Json.ofNat s.stateTransitions),
    ("consecutiveFailures", Json.ofNat s.consecutiveFailures),
    ("consecutiveSuccesses", Json.ofNat s.consecutiveSuccesses),
    ("lastFailureAt", instantAt? s.lastFailureAt), ("lastSuccessAt", instantAt? s.lastSuccessAt)]

/-- A breaker's snapshot. -/
def snapshotJson (s : Breaker.Snapshot) : Json :=
  .obj (s.name.field "name" ++ [("state", Json.ofString s.state.name),
    ("stats", statsJson s.stats), ("lastStateChangeAt", instantAt s.lastStateChangeAt),
    ("remainingMs", .num s.remainingMs),
    ("config", .obj [("failureThreshold", .num s.failureThreshold),
      ("successThreshold", .num s.successThreshold),
      ("recoveryTimeoutMs", .num s.recoveryTimeoutMs)])])

/-- A breaker event. -/
def eventJson (e : Breaker.Event) : Json :=
  .obj ([("type", Json.ofString e.kind.name)] ++ e.breaker.field "breaker" ++
    [("fromState", Json.ofString e.fromState.name), ("toState", Json.ofString e.toState.name),
    ("reason", Json.ofString e.reason), ("stats", statsJson e.stats), ("at", instantAt e.happenedAt)])

/-- A breaker's state and counters. -/
def stateStatsJson (st : Breaker.State) (s : Breaker.Stats) : Json :=
  .obj [("state", Json.ofString st.name), ("stats", statsJson s)]

/-- Every breaker's state and counters, under the text of its name; two names of
one text share a member, which holds the later breaker's. -/
def allStatsJson (xs : List (Key × (Breaker.State × Breaker.Stats))) : Json :=
  xs.foldl (fun acc (n, st, s) => acc.assign n.text (stateStatsJson st s)) (.obj [])

end LaneGate.Wire
