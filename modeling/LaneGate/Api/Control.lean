import LaneGate.Api.Signature
import LaneGate.Api.Route
import LaneGate.Api.Fields
import LaneGate.Answer.Runtime
import LaneGate.Wire.Answer
import LaneGate.Wire.Control
import LaneGate.Json.Record
/-!
# The control plane

The control plane serves the application over HTTP. A request goes through these
stages, and the first that refuses it answers:

1. its body is read (`readBody`); a refused body is answered 400 before anything
   else, without a correlation id;
2. it is given the next correlation id;
3. it is routed (`routeOf`): 404 when no route takes it, 400 for a parameter that
   does not decode;
4. a signed endpoint checks its signature (`verify`) under the configured API
   secret;
5. the endpoint's handler runs; a fault it ends with is answered by its kind
   (`faultResponse`) when the handler catches its faults (`Endpoint.catches`), and
   otherwise by the application's last error handler, which was written for bodies
   that do not parse and answers 400 with the malformed-body text.

Whatever the breakers and the router reported while a request was served is then
written to the tables (when the application persists telemetry).

Process figures that the application cannot see are reported as follows: uptime
is counted on the service clock from when the control plane was built, resident
memory is 0, and a routing decision takes no time.
-/

namespace LaneGate.Api

open Wire Store

/-- The text of a refused body or parameter. -/
def malformedText : String := "Malformed JSON request body."

/-- The fault of a question that is missing or blank. -/
def blankQuestion : Fault := .inputValidation "'question' must be a non-empty string." []

/-- The default window of a cost summary, in hours. -/
def defaultCostHours : Float := 24

/-- The longest window of a cost summary, in hours. -/
def maxCostHours : Float := 24 * 31

/-- The window of a cost summary from a query: its `hours` when that is one
positive finite number (at most `maxCostHours`), the default otherwise. -/
def costWindow (query : String) : Float :=
  let requested := match queryValues query "hours" with
    | [] => defaultCostHours
    | [v] => Decimal.ofText v
    | _ => Decimal.notANumber
  if Decimal.isFinite requested && requested > 0 then
    (if requested < maxCostHours then requested else maxCostHours)
  else defaultCostHours

/-- The question and source hint of an ask body; tags and a session id, when
given, must have their types. -/
def askRequest (v : Json) : Except Fault (String × Option String) := do
  let ms ← objectBody v
  let question ← optionalString ms "question"
  let question ← match question with
    | some q => if Text.isBlankText q then throw blankQuestion else pure q
    | none => throw blankQuestion
  let _ ← optionalStrings ms "tags"
  let source ← optionalString ms "source"
  let _ ← optionalString ms "sessionId"
  pure (question, source)

/-- The routing request of a decide body, under a correlation id. A strategy that
is not a string is refused first, then a missing input text, then an unknown
strategy, then the lists. -/
def decideRequest (v : Json) (id : String) : Except Fault RouteRequest := do
  let ms ← objectBody v
  let rawStrategy ← optionalString ms "strategy"
  let inputText ← requireString ms "inputText"
  let strategy ← match rawStrategy with
    | some raw => (Strategy.parse raw).map some
    | none => pure none
  let required ← optionalStrings ms "requiredCapabilities"
  let excluded ← optionalStrings ms "excludedProviders"
  pure { inputText, strategy, requiredCapabilities := required.getD [],
         excludedProviders := excluded.getD [], correlationId := some id }

/-- The control plane over an application. -/
structure Control where
  /-- The application. -/
  runtime : Runtime
  /-- The environment and settings file, read for the API secret. -/
  sources : Config.Sources
  /-- When the control plane was built, on the service clock. -/
  startedAt : Float
  /-- Correlation ids handed out. -/
  served : Nat := 0

/-- What a handler ends with: a status and data, or a fault. -/
abbrev Handled := Except Fault (Nat × Json)

namespace Control

/-- The answering service. -/
def service (c : Control) : Service := c.runtime.service

/-- The control plane with the service changed. -/
def withService (c : Control) (s : Service) : Control :=
  { c with runtime := { c.runtime with service := s } }

/-- The configured API secret (empty when none). -/
def secret (c : Control) : String := c.sources.valueD "API_SECRET" ""

/-- Builds the control plane over an application. -/
def create (r : Runtime) (sources : Config.Sources) : Control :=
  ⟨r, sources, r.service.now, 0⟩

/-- The environment changed: later requests read the new API secret, and texts are
cleaned of the new secret values. -/
def setEnv (c : Control) (pairs : List (String × String)) : Control :=
  let env := pairs ++ c.sources.env.filter fun p => !(pairs.any (·.1 == p.1))
  let secrets := Redact.secretValues fun k => (env.find? (·.1 == k)).map (·.2)
  { c.withService { c.service with secrets } with sources := { c.sources with env } }

/-- Every provider's health, read now; it fails when now is no date. -/
def providerHealth (s : Service) : Except Fault (List Health) × Service :=
  match s.router with
  | none => (.ok [], s)
  | some r =>
    match r.health s.breakers s.now with
    | .ok (hs, r, breakers, evs) => (.ok hs, { s with router := some r, breakers, events := s.events ++ evs })
    | .error f => (.error f, s)

/-- Every breaker's state and counters, read now. -/
def breakerStats (s : Service) : List (Key × (Breaker.State × Breaker.Stats)) × Service :=
  let (all, breakers, evs) := s.breakers.allStats s.clock
  (all, { s with breakers, events := s.events ++ evs })

/-- `GET /health`: degraded while any breaker is open. -/
def health (c : Control) : Handled × Control :=
  let (all, s) := breakerStats c.service
  match providerHealth s with
  | (.error f, s) => (.error f, c.withService s)
  | (.ok hs, s) =>
    let byText := all.foldl (fun acc (n, st, _) => Json.assignMember acc n.text st) []
    let opened := ((Json.keyOrdered byText).filter fun e => e.2 == .opened).map (Json.ofString ·.1)
    (.ok (200, .obj [("status", Json.ofString (if opened.isEmpty then "ok" else "degraded")),
        ("uptimeSec", .num (Decimal.floorOf ((s.now - c.startedAt) / 1000))),
        ("memoryUsageMb", .num 0), ("openCircuits", .arr opened),
        ("circuitBreakers", allStatsJson all), ("providers", .arr (hs.map healthJson))]),
      c.withService s)

/-- `POST /ask`. -/
def ask (c : Control) (body : Json) : Handled × Control :=
  match askRequest body with
  | .error f => (.error f, c)
  | .ok (question, source) =>
    let (r, s) := c.service.ask question source
    (r.map fun a => (200, answerJson a), c.withService s)

/-- `GET /circuit-breakers`. -/
def listBreakers (c : Control) : Handled × Control :=
  let (all, s) := breakerStats c.service
  (.ok (200, allStatsJson all), c.withService s)

/-- `POST /circuit-breakers/reset-all`: the states before and after. -/
def resetAllBreakers (c : Control) : Handled × Control :=
  let (before, s) := breakerStats c.service
  let (breakers, evs) := s.breakers.resetAll s.clock
  let (after, s) := breakerStats { s with breakers, events := s.events ++ evs }
  (.ok (200, .obj [("message", Json.ofString ("Reset " ++ toString before.length ++ " circuit breaker(s).")),
      ("before", statesJson before), ("after", statesJson after)]),
    c.withService s)

/-- `GET /circuit-breakers/:name`. -/
def getBreaker (c : Control) (name : String) : Handled × Control :=
  let s := c.service
  match s.breakers.require (Key.ofString name) with
  | .error f => (.error f, c)
  | .ok b =>
    let snap := b.snapshot s.clock
    (snap.value.map fun v => (200, snapshotJson v),
      c.withService { s with breakers := s.breakers.update snap.breaker, events := s.events ++ snap.events })

/-- `POST /circuit-breakers/:name/reset`: the state before and after. -/
def resetBreaker (c : Control) (name : String) : Handled × Control :=
  let s := c.service
  match s.breakers.require (Key.ofString name) with
  | .error f => (.error f, c)
  | .ok b =>
    let before := b.readState s.clock
    let (b, evs) := before.breaker.reset s.clock
    let snap := b.readState s.clock
    (.ok (200, .obj [("message", Json.ofString ("Circuit breaker '" ++ name ++ "' reset to CLOSED.")),
        ("previousState", Json.ofString before.value.name),
        ("currentState", Json.ofString snap.value.name)]),
      c.withService { s with breakers := s.breakers.update snap.breaker,
                             events := s.events ++ before.events ++ evs ++ snap.events })

/-- `POST /routing/decide`. -/
def decide (c : Control) (body : Json) (id : String) : Handled × Control :=
  match decideRequest body id with
  | .error f => (.error f, c)
  | .ok req =>
    match c.service.route req with
    | (some (.ok d), s) => (.ok (200, decisionData d), c.withService s)
    | (some (.error f), s) => (.error f, c.withService s)
    | (none, s) => (.error (.configuration "No LLM providers configured"), c.withService s)

/-- The router's providers, listed now. -/
def listed (s : Service) : List Provider × Service :=
  match s.router with
  | none => ([], s)
  | some r =>
    let (ps, providers) := r.providers.list s.now
    (ps, { s with router := some { r with providers } })

/-- The router's default strategy. -/
def defaultStrategy (s : Service) : Json :=
  match s.router with
  | some r => r.defaultStrategy.toJson
  | none => .null

/-- `GET /routing/providers`. -/
def listProviders (c : Control) : Handled × Control :=
  let (ps, s) := listed c.service
  (.ok (200, .obj [("providers", .arr (ps.map providerJson)), ("defaultStrategy", defaultStrategy s)]),
    c.withService s)

/-- `GET /routing/providers/:name`. -/
def describeProvider (c : Control) (name : String) : Handled × Control :=
  let s := c.service
  match s.router with
  | none => (.error (.notFound (Json.ofString "Provider") (Key.ofString name)), c)
  | some r =>
    let (p, providers) := r.providers.require name s.now
    (p.map fun p => (200, providerJson p), c.withService { s with router := some { r with providers } })

/-- `GET /routing/health`. -/
def routingHealth (c : Control) : Handled × Control :=
  match providerHealth c.service with
  | (.error f, s) => (.error f, c.withService s)
  | (.ok hs, s) => (.ok (200, .obj [("providers", .arr (hs.map healthJson))]), c.withService s)

/-- `GET /routing/metrics`. -/
def metrics (c : Control) : Handled × Control :=
  let s := c.service
  let routing := match s.router with
    | some r => routingMetricsJson r.metrics 0
    | none => .null
  (.ok (200, .obj [("routing", routing), ("orchestrator", tallyJson s.tally),
      ("defaultStrategy", defaultStrategy s)]), c)

/-- `GET /routing/cost?hours=N`: the router's summary over the window, with the
usage rows persisted since its start. The summary is made first; either step may
fail, the summary when a reset of the totals is no date. -/
def cost (c : Control) (query : String) : Handled × Control :=
  let s := c.service
  let hours := costWindow query
  let since := Clock.isoAt (s.now - hours * 3600000)
  let summary : Except Fault Json := match s.router with
    | some r => (r.ledger.summary (.num hours) s.clock).map summaryJson
    | none => .ok (.obj [])
  match summary, s.tables.usageSince (some since) with
  | .error f, _ => (.error f, c)
  | .ok _, .error f => (.error f, c)
  | .ok summary, .ok rows => (.ok (200, summary.set "persistedUsage" (.arr (rows.map usageTotalJson))), c)

/-- `PUT /routing/strategy`. -/
def setStrategy (c : Control) (body : Json) : Handled × Control :=
  let s := c.service
  match (objectBody body).bind (requireString · "strategy") with
  | .error f => (.error f, c)
  | .ok raw =>
    match s.router with
    | none => (.error (.configuration "No router attached"), c)
    | some r =>
      match r.setStrategy raw with
      | .error f => (.error f, c)
      | .ok (st, r) =>
        (.ok (200, .obj [("message", Json.ofString ("Default routing strategy set to '" ++ st.name ++ "'.")),
            ("defaultStrategy", Json.ofString st.name)]),
          c.withService { s with router := some r })

/-- `POST /runbooks/ingest`: 201 with the trimmed source and the new ids. -/
def ingest (c : Control) (body : Json) : Handled × Control :=
  let fields : Except Fault (String × List String) := do
    let ms ← objectBody body
    let source ← requireString ms "source"
    let chunks ← optionalStrings ms "chunks"
    match chunks with
    | some cs => pure (source, cs)
    | none => throw (notStrings "chunks")
  match fields with
  | .error f => (.error f, c)
  | .ok (source, chunks) =>
    match c.service.ingest source chunks with
    | (.ok ids, s) =>
      (.ok (201, .obj [("source", Json.ofString (Text.trim source)), ("chunkIds", .arr (ids.map Json.ofNat))]),
        c.withService s)
    | (.error f, s) => (.error f, c.withService s)

/-- Runs an endpoint's handler. -/
def handle (c : Control) (e : Endpoint) (body : Json) (query id : String) : Handled × Control :=
  match e with
  | .health => c.health
  | .ask => c.ask body
  | .listBreakers => c.listBreakers
  | .resetAllBreakers => c.resetAllBreakers
  | .getBreaker name => c.getBreaker name
  | .resetBreaker name => c.resetBreaker name
  | .decide => c.decide body id
  | .listProviders => c.listProviders
  | .describeProvider name => c.describeProvider name
  | .providerHealth => c.routingHealth
  | .metrics => c.metrics
  | .cost => c.cost query
  | .setStrategy => c.setStrategy body
  | .ingest => c.ingest body

/-- Serves one request. -/
def serve (c : Control) (req : Request) : Response × Control :=
  let secrets := c.service.secrets
  let now := c.service.now
  match readBody req.contentType req.body with
  | none => (failure secrets 400 (Text.ofString malformedText) none now, c)
  | some body =>
    let c := { c with served := c.served + 1 }
    let id := correlationId c.served
    let (path, query) := splitTarget req.target
    match routeOf req.method path with
    | .notFound => (failure secrets 404 (Text.ofString "Not found.") (some id) now, c)
    | .malformed => (failure secrets 400 (Text.ofString malformedText) (some id) now, c)
    | .found e =>
      let verdict := if e.signed then verify c.secret req.signature body else .accepted
      match verdict.refusal with
      | some (status, text) => (failure secrets status (Text.ofString text) (some id) now, c)
      | none =>
        let (result, c) := c.handle e body.value query id
        let c := { c with runtime := c.runtime.record }
        let now := c.service.now
        match result with
        | .ok (status, data) => (success status data (some id) now, c)
        | .error f =>
          if e.catches then (faultResponse secrets f (some id) now, c)
          else (failure secrets 400 (Text.ofString malformedText) (some id) now, c)

end Control

end LaneGate.Api
