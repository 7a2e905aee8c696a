import LaneGate.Script.Service
import LaneGate.Script.Settings
import LaneGate.Script.Backends
import LaneGate.Answer.Runtime
import LaneGate.Api.Message
/-!
# Application scripts

An application script assembles the application from a scripted environment and
settings file (optionally with prepared models in place of either lane's backend,
and a scripted network), then runs steps against it: ingests, clock moves,
questions, routing requests, and reads of the persisted telemetry. Every step shows
the prompts the prepared models heard and the requests sent over the network; a
question also shows the breakers, the routing table and the spending of the last
day. A setup that fails shows its fault alone.
-/

namespace LaneGate.Script

open Wire Store

/-- A sent request as the network saw it: address, authorization and body. -/
def sentJson (r : Backend.Request) : Json :=
  .obj [("url", Json.ofString r.url),
    ("authorization", Json.ofOption Json.ofString ((r.headers.find? (·.1 == "authorization")).map (·.2))),
    ("body", r.body)]

/-- A stored decision, without its id; a correlation id is written `uuid`. -/
def storedDecisionJson (r : DecisionRow) : Json :=
  let marked (c : String) : Json := Json.ofString (if Api.isCorrelationId c then "uuid" else c)
  .obj [("correlation_id", Json.ofOption marked r.correlationId),
    ("provider", Json.ofString r.provider), ("strategy", Json.ofString r.strategy),
    ("score", r.score.toJson), ("alternatives_json", Json.ofString r.alternativesJson),
    ("reason", Json.ofString r.reason), ("created_at", Json.ofString r.createdAt)]

/-- A stored breaker event, without its id. -/
def storedEventJson (r : BreakerRow) : Json :=
  .obj [("breaker", Json.ofString r.breaker), ("event_type", Json.ofString r.eventType),
    ("prev_state", Json.ofString r.prevState), ("new_state", Json.ofString r.newState),
    ("reason", Json.ofString r.reason), ("stats_json", Json.ofString r.statsJson),
    ("created_at", Json.ofString r.createdAt)]

/-- A stored call outcome, without its id. -/
def storedUsageJson (r : UsageRow) : Json :=
  .obj [("provider", Json.ofString r.provider), ("success", Json.ofNat (if r.success then 1 else 0)),
    ("latency_ms", cellJson r.latencyMs), ("tokens", cellJson r.tokens), ("cost", cellJson r.cost),
    ("created_at", Json.ofString r.createdAt)]

/-- One application step: its result, the extra members it shows, and the
application after. -/
def runtimeStep (r : Runtime) (step : Json) : Except Fault Json × List (String × Json) × Runtime :=
  let s := r.service
  let within (s : Service) : Runtime := Runtime.record { r with service := s }
  match strD step "do" "" with
  | "ingest" =>
    match runbookOf step with
    | .ok (source, chunks) =>
      let (res, s) := s.ingest source chunks
      (res.map fun ids => .arr (ids.map Json.ofNat), [], within s)
    | .error f => (.error f, [], within s)
  | "advance" => (.ok .null, [], within (s.advance (numD step "ms" 0)))
  | "ask" =>
    let (res, s) := match questionOf step with
      | .ok (question, hint) => s.ask question hint
      | .error f => (.error f, s)
    let (bs, s) := breakersReading s
    let (routed, cost, s) : Json × Json × Service := match s.router with
      | some rt =>
        let (ps, providers) := rt.providers.list s.now
        (.arr (ps.map providerJson), resultValue ((rt.ledger.summary (.num 24) s.clock).map summaryJson),
          { s with router := some { rt with providers } })
      | none => (.arr [], .null, s)
    (res.map answerJson, [("breakers", bs), ("routed", routed), ("cost", cost)], within s)
  | "route" =>
    match routeRequestOf step with
    | .error f => (.error f, [], within s)
    | .ok req =>
      match s.route req with
      | (some res, s) => (res.map decisionJson, [], within s)
      | (none, s) => (.ok .null, [], within s)
  | "persisted" =>
    let t := s.tables
    (.ok (.obj [("routingEvents", .arr (t.decisions.map storedDecisionJson)),
        ("breakerEvents", .arr (t.breakerEvents.map storedEventJson)),
        ("usage", .arr (t.usage.map storedUsageJson))]), [], within s)
  | _ => (.ok .null, [], within s)

/-- Runs an application script. -/
def runRuntime (req : Json) : Except Fault Json :=
  let start := startOf req
  let given : Replacements :=
    { onDevice := (field? req "onDevice").map modelOf, cloud := (field? req "cloud").map modelOf,
      network := match field? req "fetch" with
        | some f => replyOf f
        | none => .failed "fetch failed" }
  match Runtime.create (sourcesOf req) given (flag req "persistTelemetry") (secretsOf req) start with
  | .error f => .ok (faultJson f)
  | .ok r =>
    let s := r.service
    let (providers, limits, strategy, s) : Json × Json × Json × Service := match s.router with
      | some rt =>
        let (ps, providers) := rt.providers.list s.now
        (.arr (ps.map providerJson), limitsJson rt.ledger.limits, rt.defaultStrategy.toJson,
          { s with router := some { rt with providers } })
      | none => (.arr [], .null, Json.ofString "", s)
    let r := Runtime.record { r with service := s }
    let (_, steps) := (items req "steps").foldl
      (fun (acc : Runtime × List Json) step =>
        let r := { acc.1 with service := { acc.1.service with heard := [], requests := [] } }
        let (res, extra, r) := runtimeStep r step
        let shown := stepAnswer res (strD step "do" "" == "advance")
          ([("prompts", .arr (r.service.heard.map Json.str)),
            ("fetchCalls", .arr (r.service.requests.map sentJson))] ++ extra)
        (r, acc.2 ++ [shown]))
      (r, [])
    .ok (.obj [("config", pipelineJson r.service.config), ("defaultStrategy", strategy),
      ("providers", providers), ("limits", limits), ("breakers", Json.ofStrings r.service.breakers.nameTexts),
      ("steps", .arr steps)])

end LaneGate.Script
