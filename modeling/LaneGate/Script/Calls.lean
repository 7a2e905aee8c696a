import LaneGate.Script.Decode
import LaneGate.Script.Encode
import LaneGate.Call.Retry
import LaneGate.Call.Timeout
/-!
# Call scripts

Scripts that drive the retry loop, a pause and a timed call with scripted
outcomes. A retry script's attempt `k` takes the `k`-th scripted outcome (the last
one repeats); a timed call's operation resolves, rejects, or settles late or never.
-/

namespace LaneGate.Script

/-- A scripted outcome: `{"err": spec}` fails, anything else gives its `value`,
which may be missing. -/
def outcomeOf (j : Json) : Except Fault (Option Json) :=
  match field? j "err" with
  | some spec => .error (faultOfSpec spec)
  | none => .ok (j.get? "value")

/-- The deadline of a script's `preAborted` signal: fired from the start, with the
scripted reason (a request timeout of 1000 ms by default). -/
def preAbortOf (req : Json) : Option Deadline :=
  if flag req "preAborted" then
    some ⟨0, match field? req "abortReason" with
      | some spec => faultOfSpec spec
      | none => .callTimeout (Json.ofString "request") (.num 1000)⟩
  else none

/-- What a retry script shows of a loop that reported its outcome. -/
def retryReport (r : Retried (Option Json)) : Json :=
  let common : List (String × Json) :=
    [("attempts", Json.ofNat r.attempts),
     ("calls", .arr ((List.range r.attempts).map fun i => Json.ofNat (i + 1))),
     ("failed", .arr (r.failures.map fun (k, f) =>
       withMembers (.obj [("attempt", Json.ofNat k)]) (match faultJson f with
         | .obj ms => ms
         | _ => []))),
     ("shouldRetryCalls", .arr (r.consulted.map Json.ofNat)),
     ("durationIsNumber", .bool true)]
  match r.result with
  | .ok v => .obj ([("ok", .bool true)] ++ (v.map ("value", ·)).toList ++ common)
  | .error last =>
    .obj ([("ok", .bool false),
      ("errorText", .str (r.errorText.getD Text.empty)),
      ("lastError", Json.ofOption faultJson last)] ++ common)

/-- Runs a retry script: the loop's report, or what it threw. -/
def runRetry (req : Json) : Except Fault Json :=
  let outcomes := items req "outcomes"
  let option (key : String) : Option Float := (field? req key).map fun j => (Primitive.ofJson j).toNumber
  let plan := RetryPlan.ofOptions (option "maxAttempts") (option "baseDelayMs") (option "maxDelayMs")
  let stopOn := (field? req "stopOn").map fun _ => texts req "stopOn"
  let shouldRetry (f : Fault) (_ : Nat) : Option Bool :=
    stopOn.map fun kinds => !kinds.contains (kindOf f)
  let attempt (k : Nat) (s : Unit) (elapsed : Float) : Except Fault (Option Json) × Unit × Float :=
    (outcomeOf (outcomes.getD (min (k - 1) (outcomes.length - 1)) .null), s, elapsed)
  (retry plan shouldRetry (preAbortOf req) attempt ()).1.map retryReport

/-- How a timed script's operation behaves. -/
def settlingOf (req : Json) : Settling × Except Fault Json :=
  let value := .ok ((req.get? "value").getD .null)
  let failure := .error (faultOfSpec (req.getD "err"))
  let delay := numD req "delayMs" 0
  match strD req "behavior" "resolve" with
  | "reject" => (.immediately, failure)
  | "hang" => (.never, value)
  | "late_resolve" => (.after delay, value)
  | "late_reject" => (.after delay, failure)
  | _ => (.immediately, value)

/-- What a timed-call script reports of a watched call: its result, whether the call
was made, and whether and why its signal was aborted. -/
def timedReport (t : Timed) : Except Fault Json :=
  -- a call that was not made has no signal to report
  let signal : List (String × Json) :=
    if t.called then
      match t.watch.aborted with
      | some f => [("signalAborted", .bool true), ("signalReason", faultJson f)]
      | none => [("signalAborted", .bool false)]
    else [("signalAborted", .null)]
  match t.watch.outcome with
  | some r =>
    .ok (withMembers (match r with
      | .ok v => .obj [("value", v)]
      | .error f => faultJson f) (("called", .bool t.called) :: signal))
  -- the timeout is always scheduled, so every call settles
  | none => .error (.plain (Text.ofString "the call never settled"))

/-- Runs a timed-call script. -/
def runTimed (req : Json) : Except Fault Json :=
  let timeoutMs := numD req "timeoutMs" 0
  let label := strD req "label" "call"
  let parentAfter := num? req "parentAbortAfterMs"
  let reason := match field? req "parentReason" with
    | some spec => faultOfSpec spec
    | none => .callTimeout (Json.ofString "request") (.num (parentAfter.getD 1))
  let parent : Parent :=
    if flag req "parentAborted" then .aborted reason
    else if parentAfter.isSome then .pending else .absent
  let (op, outcome) := settlingOf req
  timedReport (withTimeout (Json.ofString label) timeoutMs parent
    (schedule op outcome timeoutMs (parentAfter.map timerDelay) reason))

end LaneGate.Script
