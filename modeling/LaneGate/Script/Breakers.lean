import LaneGate.Script.Decode
import LaneGate.Script.Encode
/-!
# Breaker scripts

A breaker script drives one breaker, or a registry of named breakers, through a
list of steps on a fake clock. A call step is let through, then completed with the
scripted outcome; reading steps look at the breaker the way callers do (reading
the state may move an open breaker to half-open). Each step reports its result
and the events emitted while it ran.
-/

namespace LaneGate.Script

open Wire Breaker

/-- The clock start of a script, a time value (2026-03-10T12:00:00.000Z by default). -/
def startOf (req : Json) : Float := numD req "start" 1773144000000

/-- A call through a breaker whose events are taken, ending with the given outcome:
refused while open, otherwise recorded as a success or a failure. -/
def callThrough (b : Breaker) (now : Float) (outcome : Except Fault Json) :
    Except Fault Json × Breaker × List Event :=
  let s := b.execute now outcome now
  (s.value, s.breaker, s.events)

/-- The scripted fault of a step (an `Error` "boom" by default). -/
def stepFault (step : Json) : Fault := faultOfSpec (step.getD "err")

/-- The four flags of a breaker, each a look at its state through the sink, in order;
the first fault that gets out ends the reading. -/
def flagsOf (b : Breaker) (now : Float) (sink : Sink) : Step (Except Fault Json) :=
  let s1 := (b.readState now).through sink
  match s1.value with
  | .error f => ⟨.error f, s1.breaker, s1.events⟩
  | .ok st1 =>
    let s2 := (s1.breaker.readState now).through sink
    match s2.value with
    | .error f => ⟨.error f, s2.breaker, s1.events ++ s2.events⟩
    | .ok st2 =>
      let s3 := (s2.breaker.readState now).through sink
      match s3.value with
      | .error f => ⟨.error f, s3.breaker, s1.events ++ s2.events ++ s3.events⟩
      | .ok st3 =>
        let s4 := (s3.breaker.remainingMs now).through sink
        ⟨s4.value.map fun ms => .obj [("isClosed", .bool (st1 == .closed)),
            ("isOpen", .bool (st2 == .opened)), ("isHalfOpen", .bool (st3 == .halfOpen)),
            ("remainingMs", .num ms)],
          s4.breaker, s1.events ++ s2.events ++ s3.events ++ s4.events⟩

/-- A step that works on one breaker, whose events go to a sink: its result object,
the breaker after it and the events, or `none` if the step is of another kind. -/
def breakerStep (step : Json) (b : Breaker) (now : Float) (sink : Sink := .quiet) :
    Option (Json × Breaker × List Event) :=
  let call (outcome : Except Fault Json) : Option (Json × Breaker × List Event) :=
    let s := b.execute now outcome now sink
    some (resultJson s.value, s.breaker, s.events)
  match strD step "do" "" with
  | "ok" | "sync_ok" => call (.ok ((field? step "value").getD (Json.ofString "ok")))
  | "fail" | "sync_fail" | "wrap_fail" => call (.error (stepFault step))
  | "wrap_ok" =>
    let a := Json.shown ((field? step "a").getD (.num 1))
    let c := Json.shown ((field? step "b").getD (.num 2))
    call (.ok (Json.ofString (a ++ "+" ++ c)))
  | "reset" =>
    let (b, evs) := b.reset now
    match sink.escape evs with
    | .error f => some (faultJson f, b, evs)
    | .ok () => some (.obj [], b, evs)
  | "state" =>
    let s := (b.readState now).through sink
    some (resultJson (s.value.map fun st => Json.ofString st.name), s.breaker, s.events)
  | "flags" =>
    let s := flagsOf b now sink
    some (resultJson s.value, s.breaker, s.events)
  | "stats" => some (.obj [("value", statsJson b.stats)], b, [])
  | "snapshot" =>
    let s := b.snapshot now sink
    some (resultJson (s.value.map snapshotJson), s.breaker, s.events)
  | _ => none

/-- The sink of a single-breaker script: one that collects every event, or, with
`sinkThrows`, one that throws an error on every event. -/
def sinkOf (req : Json) : Sink :=
  if flag req "sinkThrows" then .failing else .quiet

/-- The state of a single-breaker script. -/
structure SoloRun where
  /-- The breaker. -/
  breaker : Breaker
  /-- The fake clock. -/
  now : Float
  /-- The breaker's event sink; the script shows the events it took. -/
  sink : Sink

/-- One step of a single-breaker script and its reported result; a snapshot after
the step that fails ends the script. -/
def SoloRun.step (r : SoloRun) (step : Json) : Except Fault (SoloRun × Json) := do
  let (result, b, now, evs) :=
    match strD step "do" "" with
    | "advance" => (Json.obj [], r.breaker, r.now + numD step "ms" 0, [])
    | _ =>
      match breakerStep step r.breaker r.now r.sink with
      | some (j, b, evs) => (j, b, r.now, evs)
      | none => (Json.obj [], r.breaker, r.now, [])
  let (result, b, evs) ←
    if flag step "quiet" then pure (result, b, evs)
    else
      let s := b.snapshot now r.sink
      pure (result.set "snapshot" (snapshotJson (← s.value)), s.breaker, evs ++ s.events)
  let shown := evs.filter fun e => (r.sink.throws e).isNone
  pure ({ r with breaker := b, now := now }, result.set "events" (.arr (shown.map eventJson)))

/-- Runs a single-breaker script. -/
def runBreaker (req : Json) : Except Fault Json := do
  let config ← breakerConfigOf (some (givenOr req "name" (Json.ofString "b"))) (req.getD "config")
  let start := startOf req
  let run : SoloRun := ⟨Breaker.create config start, start, sinkOf req⟩
  let (_, results) ← (items req "steps").foldlM
    (fun (acc : SoloRun × List Json) step => do
      let (r, j) ← acc.1.step step
      pure (r, acc.2 ++ [j]))
    (run, [])
  pure (.arr results)

/-- The state of a registry script. -/
structure RegistryRun where
  /-- The registry. -/
  registry : Registry
  /-- The fake clock. -/
  now : Float

/-- The registry call a step makes, if it is one. -/
def registryCallOf (step : Json) : Option Registry.Call :=
  let name : Key := ⟨step.get? "name"⟩
  let config := step.getD "config"
  match strD step "do" "" with
  | "get" => some (.get name (givenOf config "failureThreshold") (givenOf config "successThreshold")
      (givenOf config "recoveryTimeoutMs") (policyOf config))
  | "has" => some (.has name)
  | "find" => some (.find name)
  | "require" => some (.require name)
  | "names" => some .names
  | "all_stats" => some .allStats
  | "reset" => some (.reset name)
  | "reset_all" => some .resetAll
  | "remove" => some (.remove name)
  | _ => none

/-- The result and state after one registry step, with the events it emitted. A
step that answers a breaker shows its snapshot, taken after the call. -/
def RegistryRun.step (r : RegistryRun) (step : Json) : RegistryRun × Json × List Event :=
  let name : Key := ⟨step.get? "name"⟩
  let now := r.now
  let reg := r.registry
  let snapshotOf (b : Breaker) (reg : Registry) : Json × Registry × List Event :=
    let s := b.snapshot now
    (resultJson (s.value.map snapshotJson), reg.update s.breaker, s.events)
  let (j, reg, evs, now) : Json × Registry × List Event × Float :=
    match registryCallOf step with
    | some c =>
      let (res, reg, evs) := reg.call now c
      match res with
      | .error f => (faultJson f, reg, evs, now)
      | .ok (.breaker b) | .ok (.found (some b)) =>
        let (j, reg, evs') := snapshotOf b reg
        (j, reg, evs ++ evs', now)
      | .ok (.found none) => (.obj [("value", .null)], reg, evs, now)
      | .ok (.truth t) => (.obj [("value", .bool t)], reg, evs, now)
      | .ok (.names ks) => (.obj [("value", .arr (ks.map Key.toJson))], reg, evs, now)
      | .ok (.stats xs) => (.obj [("value", allStatsJson xs)], reg, evs, now)
      | .ok .done => (.obj [], reg, evs, now)
    | none =>
      match strD step "do" "" with
      | "get_same" =>
        let cfg := fun (n : Key) => breakerConfigOf n.value (step.getD "config")
        match reg.obtain name cfg now with
        | .ok (_, reg) =>
          match reg.obtain name cfg now with
          | .ok (_, reg) => (.obj [("value", .bool true)], reg, [], now)
          | .error f => (faultJson f, reg, [], now)
        | .error f => (faultJson f, reg, [], now)
      | "advance" => (.obj [], reg, [], now + numD step "ms" 0)
      | _ =>
        match reg.require name with
        | .ok b =>
          match breakerStep step b now with
          | some (j, b, evs) => (j, reg.update b, evs, now)
          | none => (.obj [], reg, [], now)
        | .error f => (faultJson f, reg, [], now)
  (⟨reg, now⟩, j, evs)

/-- Runs a registry script. -/
def runRegistry (req : Json) : Except Fault Json :=
  let run : RegistryRun := ⟨{}, startOf req⟩
  let (_, results) := (items req "steps").foldl
    (fun (acc : RegistryRun × List Json) step =>
      let (r, j, evs) := acc.1.step step
      (r, acc.2 ++ [j.set "events" (.arr (evs.map eventJson))]))
    (run, [])
  .ok (.arr results)

end LaneGate.Script
