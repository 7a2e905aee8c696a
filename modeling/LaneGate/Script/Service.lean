import LaneGate.Script.Decode
import LaneGate.Script.Encode
import LaneGate.Script.Pure
import LaneGate.Script.Routing
import LaneGate.Answer.Service
import LaneGate.Wire.Answer
/-!
# Service scripts

A service script builds an answering service from its parts (settings, lane policy,
runbooks, the lanes' models, the fallback's grounding and an optional router), then
runs steps against it: questions, clock moves, ingests, and reads and pokes of the
lane breakers. Every step shows the prompts the models heard and the breaker events
emitted while it ran; a question also shows every breaker and, with a router, the
router's providers, counters, load and spending.
-/

namespace LaneGate.Script

open Wire Store

/-- Service settings: the defaults, each replaced by the value given for it (a
`null` given included). -/
def pipelineOf (j : Json) : PipelineConfig :=
  let d : PipelineConfig := {}
  let given (key : String) (dflt : Primitive) : Primitive :=
    match j.entries.find? (·.1 == key) with
    | some (_, v) => Primitive.ofJson v
    | none => dflt
  { timeoutMs := given "timeoutMs" d.timeoutMs, maxRetries := given "maxRetries" d.maxRetries,
    backoffBaseMs := given "backoffBaseMs" d.backoffBaseMs,
    backoffMaxMs := given "backoffMaxMs" d.backoffMaxMs,
    requestDeadlineMs := given "requestDeadlineMs" d.requestDeadlineMs,
    failureThreshold := given "failureThreshold" d.failureThreshold,
    successThreshold := given "successThreshold" d.successThreshold,
    recoveryTimeoutMs := given "recoveryTimeoutMs" d.recoveryTimeoutMs,
    topK := given "topK" d.topK, minAnswerChars := given "minAnswerChars" d.minAnswerChars }

/-- A prepared reply: a hang, a fault (`err`), or a text with its optional token
count, name and delay. -/
def preparedOf (j : Json) : Prepared :=
  let advanceMs := numD j "advanceMs" 0
  if flag j "hang" then { result := .error .aborted, advanceMs, settling := .never }
  else
    match field? j "err" with
    | some spec => { result := .error (faultOfSpec spec), advanceMs, textful := faultOfSpec_hasText spec }
    | none =>
      let text := ((j.getD "text").text?).getD Text.empty
      let settling : Settling := match num? j "lateMs" with
        | some ms => .after ms
        | none => .immediately
      { result := .ok (text, num? j "tokenEstimate", (field? j "provider").map Json.shown),
        advanceMs, settling }

/-- A lane's model: the stub backend (`stub`: true, or its answer), or prepared
replies. -/
def modelOf (j : Json) : Model :=
  match field? j "stub" with
  | some (.bool true) =>
    .backend (.stub (Json.ofString "on_device_stub") (Json.ofString Backend.stubAnswer)) (.failed "fetch failed")
  | some (.str a) => .backend (.stub (Json.ofString (strD j "name" "")) (.str a)) (.failed "fetch failed")
  | _ => .prepared (strD j "name" "") ((items j "responses").map preparedOf)

/-- A lane's answerer from its script. -/
def answererOf (lane : Lane) (j : Json) : Answerer :=
  { lane, model := modelOf j, topK := Primitive.ofJson (givenOr j "topK" (.num 5)),
    retrieval := { scanLimit := numD j "scanLimit" Runbooks.defaultScanLimit,
                   maxPromptChars := numD j "maxPromptChars" Prompt.defaultMaxChars } }

/-- The answerers of the lanes a script configures. -/
def answerersOf (lanes : Json) : List Answerer :=
  Lane.all.filterMap fun l => (field? lanes l.name).map (answererOf l)

/-- The fallback's grounding by name (the grounded lane's by default). -/
def groundingOf (name : String) : Grounding :=
  match name with
  | "none" => .none
  | "failing" => .failing
  | "store" => .store
  | _ => .onDevice

/-- An answerer as the setup shows it. -/
def answererJson (a : Answerer) : Json :=
  let base := [("lane", Json.ofString a.lane.name), ("providerName", Json.ofString a.model.name)]
  .obj (if a.lane == .onDeviceRag then base ++ [("topK", a.topK.toJson)] else base)

/-- Every breaker's state and counters, read now. -/
def breakersReading (s : Service) : Json × Service :=
  let (all, breakers, evs) := s.breakers.allStats s.clock
  (allStatsJson all, { s with breakers, events := s.events ++ evs })

/-- The router's providers, counters, load and spending of the last day. -/
def routerReading (s : Service) : Option Json × Service :=
  match s.router with
  | none => (none, s)
  | some r =>
    let (ps, providers) := r.providers.list s.now
    let r := { r with providers }
    (some (.obj [("providers", .arr (ps.map providerJson)), ("metrics", metricsJson r.metrics),
        ("load", loadJson r.balancer), ("cost", resultValue ((r.ledger.summary (.num 24) s.clock).map summaryJson))]),
      { s with router := some r })

/-- A breaker poked directly: read after `n` counted failures. -/
def tripped (s : Service) (name : Key) (n : Nat) : Except Fault Json × Service :=
  match s.breakers.obtain name (fun x => Breaker.Config.make x.value none none none) s.clock with
  | .error f => (.error f, s)
  | .ok (b, reg) =>
    let (b, evs) := (List.replicate n ()).foldl
      (fun (acc : Breaker.Breaker × List Breaker.Event) _ =>
        let (_, b, evs) := callThrough acc.1 s.clock (.error (.plain (Text.ofString "tripped")))
        (b, acc.2 ++ evs))
      (b, [])
    let st := b.readState s.clock
    (.ok (stateStatsJson st.value st.breaker.stats),
      { s with breakers := reg.update st.breaker, events := s.events ++ evs ++ st.events })

/-- A breaker reset by hand, shown whole. -/
def resetLane (s : Service) (name : Key) : Except Fault Json × Service :=
  match s.breakers.require name with
  | .error f => (.error f, s)
  | .ok b =>
    let (b, evs) := b.reset s.clock
    let snap := b.snapshot s.clock
    (snap.value.map snapshotJson,
      { s with breakers := s.breakers.update snap.breaker, events := s.events ++ evs ++ snap.events })

/-- One service step: its result, the extra members it shows, and the service after. -/
def serviceStep (s : Service) (step : Json) : Except Fault Json × List (String × Json) × Service :=
  match strD step "do" "" with
  | "ask" =>
    let (r, s) := match questionOf step with
      | .ok (question, hint) => s.ask question hint
      | .error f => (.error f, s)
    let (bs, s) := breakersReading s
    let (rj, s) := routerReading s
    (r.map answerJson, [("breakers", bs)] ++ (rj.map fun j => ("router", j)).toList, s)
  | "advance" => (.ok .null, [], s.advance (numD step "ms" 0))
  | "ingest" =>
    match runbookOf step with
    | .ok (source, chunks) =>
      let (r, s) := s.ingest source chunks
      (r.map fun ids => .arr (ids.map Json.ofNat), [], s)
    | .error f => (.error f, [], s)
  | "metrics" => (.ok (tallyJson s.tally), [], s)
  | "breakers" =>
    let (bs, s) := breakersReading s
    (.ok bs, [], s)
  | "reset" =>
    let (r, s) := resetLane s ⟨step.get? "lane"⟩
    (r, [], s)
  | "trip" =>
    let (r, s) := tripped s ⟨step.get? "lane"⟩ (repeats step 1)
    (r, [], s)
  | _ => (.ok .null, [], s)

/-- A step's answer: the value (none for a plain move of the clock) or the fault,
with the prompts and events of the step and the extra members. -/
def stepAnswer (r : Except Fault Json) (isMove : Bool) (extra : List (String × Json)) : Json :=
  let base : Json := match r with
    | .ok v => if isMove then .obj [] else .obj [("value", v)]
    | .error f => faultJson f
  withMembers base extra

/-- Runs a service script. -/
def runService (req : Json) : Except Fault Json := do
  let start := startOf req
  let config := pipelineOf (req.getD "config")
  let p := req.getD "policy"
  let policy : LanePolicy String := ⟨flag p "enableCloudLane", strD p "onDeviceProvider" "ollama_local",
    strD p "cloudProvider" "cloud_openai"⟩
  let tables ← (items req "runbooks").foldlM
    (fun (t : Tables) rb => do
      let (source, chunks) ← runbookOf rb
      let (_, t) ← Runbooks.ingest t source chunks (Clock.isoAt start)
      pure t)
    ({} : Tables)
  let router ← match field? req "router" with
    | some rj => (routerOf rj start).map some
    | none => pure none
  let s ← Service.create config policy (answerersOf (req.getD "lanes"))
    (groundingOf (strD req "grounding" "on_device")) (Confidence.Policy.make config.minAnswerChars.toNumber)
    router tables {} (secretsOf req) start
  let given := (req.getD "config").entries
  let setup : Json := .obj [("config", withMembers (pipelineJson config) given),
    ("breakers", .arr (s.breakers.names.map Key.toJson)),
    ("answerers", .arr (s.answerers.map answererJson))]
  let (_, steps) := (items req "steps").foldl
    (fun (acc : Service × List Json) step =>
      let s := { acc.1 with events := [], heard := [] }
      let (r, extra, s) := serviceStep s step
      let shown := stepAnswer r (strD step "do" "" == "advance")
        ([("prompts", .arr (s.heard.map Json.str)), ("events", .arr (s.events.map eventJson))] ++ extra)
      (s, acc.2 ++ [shown]))
    (s, [])
  pure (.arr (setup :: steps))

end LaneGate.Script
