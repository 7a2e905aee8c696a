import LaneGate.Script.Breakers
import LaneGate.Routing.Router
import LaneGate.Clock.Reading
import LaneGate.Json.Record
/-!
# Routing scripts

Scripts that drive the load balancer, the spending ledger and the router on a
fake clock. The balancer's draws come from the script's `random` list. Providers in
ledger scripts are described on top of an `openai` provider of model `m`. The router
shares one breaker registry with breaker steps of its own, and reports each routing
decision and each call result to a telemetry sink, whose entries a step shows.
-/

namespace LaneGate.Script

open Wire Breaker

/-- The draws of a script, each made a number. -/
def drawsOf (req : Json) : Draws :=
  match field? req "random" with
  | some (.arr xs) => { values := xs.map numberOf }
  | _ => {}

/-- A balancer candidate from a scripted value: the members of an object (its
weight made a number, not a number when missing; its average latency as given);
any other value has neither, and null has no members to read at all. -/
def candidateOf (j : Json) : Except Fault (Candidate Key) :=
  match j with
  | .null => .error .wrongType
  | j => .ok ⟨⟨j.get? "name"⟩, ((j.get? "weight").map numberOf).getD Decimal.notANumber,
      j.get? "avgLatencyMs"⟩

/-- How many candidates a value holds, read as its length: a list's items, a text's
units, an object's `length` member; other values have none (`undefined`),
and a missing or null value cannot be read. -/
def candidateCount : Option Json → Except Fault Primitive
  | none | some .null => .error .wrongType
  | some (.arr xs) => .ok (.num xs.length.toFloat)
  | some (.str t) => .ok (.num t.units.length.toFloat)
  | some (.obj ms) => .ok (Primitive.ofOption ((Json.obj ms).get? "length"))
  | some _ => .ok .undefined

/-- The item of a value at a numeric position: a list's item at a whole position in
range, a text's unit there, an object's member named by the number's text. -/
def itemAt (v : Json) (pos : Float) : Option Json :=
  match v with
  | .arr xs => (positionBelow xs.length pos).bind (xs[·]?)
  | .str t => (positionBelow t.units.length pos).bind fun i => (t.units[i]?).map fun u => .str ⟨[u]⟩
  | .obj ms => (Json.obj ms).get? (Decimal.numberText pos)
  | _ => none

/-- The items of a value that can be walked through: a list's items, a text's
characters; nothing else can. -/
def walked : Option Json → Except Fault (List Json)
  | some (.arr xs) => .ok xs
  | some (.str t) => .ok (t.toString.toList.map fun c => Json.ofString c.toString)
  | _ => .error .wrongType

/-- The name of a picked item, null when nothing was picked or it has none. -/
def pickedName (item : Option Json) : Json :=
  (item.bind fun j => j.get? "name").getD .null

/-- One balancer step: its bare result and the balancer after it. -/
def balancerStep (b : Balancer Key) (step : Json) : Except Fault (Json × Balancer Key) := do
  let given := step.get? "candidates"
  let pickAt (r : Option Float × Balancer Key) : Json × Balancer Key :=
    (pickedName (r.1.bind fun pos => given.bind (itemAt · pos)), r.2)
  let listed : Except Fault (List Json × List (Candidate Key)) := do
    let items ← walked given
    pure (items, ← items.mapM candidateOf)
  let pickIn (items : List Json) (i : Option Nat) : Json := pickedName (i.bind (items[·]?))
  let name : Key := ⟨step.get? "name"⟩
  match strD step "do" "" with
  | "round_robin" => pure (pickAt (b.roundRobin (← candidateCount given)))
  | "random" => pure (pickAt (b.random (← candidateCount given)))
  | "weighted" =>
    if (← candidateCount given).isZeroCount then pure (.null, b)
    else
      match given with
      | some (.arr xs) =>
        let (i, b) := b.weighted (← xs.mapM candidateOf)
        pure (pickIn xs i, b)
      | _ => throw .wrongType
  | "least" => let (items, cs) ← listed; pure (pickIn items (b.leastBusy cs), b)
  | "fastest" => let (items, cs) ← listed; pure (pickIn items (b.fastest cs), b)
  | "expected" =>
    let c ← candidateOf ((step.get? "provider").getD .null)
    pure ((b.expectedLatency c).getD .null, b)
  | "start" => pure (.null, b.recordStart name)
  | "end" => pure (.null, b.recordEnd name (Primitive.ofOption (step.get? "ms")))
  | "end_many" =>
    pure (.null, (items step "samples").foldl (fun b x => b.recordEnd name (Primitive.ofJson x)) b)
  | "stats" => pure (loadJsonBy Key.text b, b)
  | "reset" => pure (.null, b.reset)
  | _ => pure (.null, b)

/-- Runs a load balancer script; a step that cannot read its input ends it. -/
def runBalancer (req : Json) : Except Fault Json := do
  let b : Balancer Key := { draws := drawsOf req }
  let (_, results) ← (items req "steps").foldlM
    (fun (acc : Balancer Key × List Json) step => do
      let (j, b) ← balancerStep acc.1 step
      pure (b, acc.2 ++ [j]))
    (b, [])
  pure (.arr results)

/-- The spending limits of a script: the defaults with the members of the given
value on top. -/
def limitsOf (j : Json) : Limits := ({} : Limits).withMembers j.entries

/-- The prices set by name in a script, as given. -/
def customCostsOf (req : Json) : List (String × Json) := (req.getD "customCosts").entries

/-- The text whose tokens a step estimates: any value that counts as false is the
empty text, and any other value must be text. -/
def inputTextOf (step : Json) : Except Fault String :=
  match step.get? "inputText" with
  | some (.str t) => .ok t.toString
  | some v => if v.truthy then .error .wrongType else .ok ""
  | none => .ok ""

/-- A member as given, its default when missing (null is kept). -/
def argOr (step : Json) (key : String) (dflt : Float) : Primitive :=
  Primitive.ofJson (presentOr step key (.num dflt))

/-- A provider of a ledger script: an `openai` provider of model `m` with the given
fields on top. -/
def pricedProviderOf (j : Json) : Except Fault Provider :=
  let base : Json := .obj [("kind", Json.ofString "openai"), ("model", Json.ofString "m")]
  let merged := match j with
    | .obj ms => withMembers base ms
    | _ => base
  Provider.make (providerInputOf merged)

/-- The state of a ledger script. -/
structure LedgerRun where
  /-- The ledger. -/
  ledger : Ledger
  /-- The fake clock, a time value. -/
  now : Float

/-- One ledger step and its result. -/
def LedgerRun.step (r : LedgerRun) (step : Json) : LedgerRun × Except Fault Json :=
  let l := r.ledger
  let output := argOr step "outputTokens" defaultOutputTokens
  match strD step "do" "" with
  | "per1k" => (r, (pricedProviderOf (step.getD "provider")).map fun p => l.priceGiven p)
  | "estimate" =>
    (r, do
      let p ← pricedProviderOf (step.getD "provider")
      pure (estimateJson (l.estimate p (← inputTextOf step) output)))
  | "rank" =>
    (r, do
      let ps ← (items step "providers").mapM pricedProviderOf
      pure (.arr ((l.rank ps (← inputTextOf step) output).map fun (p, e) =>
        .obj [("provider", Json.ofString p.name), ("estimate", estimateJson e)])))
  | "record" =>
    let provider := (Primitive.ofOption (step.get? "provider")).toText.toString
    let arg (key : String) := Primitive.ofOption (step.get? key)
    match l.record provider (arg "tokens") (arg "cost") r.now with
    | .ok l => ({ r with ledger := l }, .ok .null)
    | .error f => (r, .error f)
  | "within" => (r, .ok (.bool (l.withinBudget (argOr step "additional" 0))))
  | "alert" => (r, .ok (.bool l.shouldAlert))
  | "budget" => (r, l.status.map budgetJson)
  | "summary" => (r, (l.summary (presentOr step "hours" (.num 24)) r.now).map summaryJson)
  | "limits" => (r, .ok (limitsJson l.limits))
  | "advance" => ({ r with now := r.now + numD step "ms" 0 }, .ok .null)
  | "set_time" => ({ r with now := Clock.readDate (strD step "iso" "") }, .ok .null)
  | _ => (r, .ok .null)

/-- Runs a ledger script. -/
def runLedger (req : Json) : Except Fault Json :=
  let start := startOf req
  let run : LedgerRun := ⟨Ledger.create (limitsOf (req.getD "limits")) (customCostsOf req) start, start⟩
  let (_, results) := (items req "steps").foldl
    (fun (acc : LedgerRun × List Json) step =>
      let (r, res) := acc.1.step step
      (r, acc.2 ++ [resultJson res]))
    (run, [])
  .ok (.arr results)

/-- A routing decision as JSON. -/
def decisionJson (d : Decision) : Json :=
  .obj [("provider", providerJson d.provider), ("strategy", d.strategy.toJson),
    ("score", .num d.score), ("alternatives", Json.ofStrings d.alternatives),
    ("reason", Json.ofString d.reason), ("correlationId", Json.ofOption Json.ofString d.correlationId),
    ("decidedAt", instantAt d.decidedAt), ("frozen", .bool true)]

/-- The telemetry entry of a decision. -/
def decisionEntry (d : Decision) : Json :=
  .obj [("kind", Json.ofString "decision"), ("provider", Json.ofString d.provider.name),
    ("score", .num d.score), ("reason", Json.ofString d.reason)]

/-- The telemetry entry of a call result. -/
def resultEntry (c : CallReport) : Json :=
  let given (name : String) : Option Json → List (String × Json)
    | some v => [(name, v)]
    | none => []
  .obj ([("kind", Json.ofString "result")] ++ c.providerName.field "providerName" ++
    given "success" c.success ++ given "latencyMs" c.latencyMs ++
    [("tokensUsed", c.tokensUsed), ("cost", c.cost)])

/-- Routing counters as JSON. -/
def metricsJson (m : RouteMetrics) : Json :=
  .obj [("totalRequests", Json.ofNat m.totalRequests), ("requestsByProvider", Json.tally m.requestsByProvider),
    ("requestsByStrategy", Json.tally m.requestsByStrategy), ("fallbackCount", Json.ofNat m.fallbackCount),
    ("avgRoutingTimeIsNumber", .bool true)]

/-- A routing request from a step; a named strategy must be valid. -/
def routeRequestOf (step : Json) : Except Fault RouteRequest := do
  let strategy ← match field? step "strategy" with
    | some v => (Strategy.parse (Json.shown v)).map some
    | none => pure none
  pure { inputText := strD step "inputText" "", strategy,
         requiredCapabilities := texts step "requiredCapabilities",
         excludedProviders := texts step "excludedProviders",
         correlationId := (field? step "correlationId").map Json.shown }

/-- A call report from a step. -/
def callReportOf (step : Json) : CallReport :=
  { providerName := ⟨step.get? "providerName"⟩, success := step.get? "success",
    latencyMs := step.get? "latencyMs", tokensUsed := givenOr step "tokensUsed" (.num 0),
    cost := givenOr step "cost" (.num 0) }

/-- A breaker's state and counters, read now. -/
def breakerReading (b : Breaker) (now : Float) : Json × Breaker :=
  let s := b.readState now
  (stateStatsJson s.value s.breaker.stats, s.breaker)

/-- Calls through a breaker `n` times with the same outcome; refusals are ignored. -/
def repeatCalls (b : Breaker) (now : Float) (n : Nat) (outcome : Except Fault Json) : Breaker :=
  (List.replicate n ()).foldl (fun b _ => (callThrough b now outcome).2.1) b

/-- The state of a router script. -/
structure RouterRun where
  /-- The router. -/
  router : Router
  /-- The breakers it consults. -/
  breakers : Registry
  /-- The fake clock, a time value. -/
  now : Float
  /-- Whether the telemetry sink keeps what it is sent (a failing sink does not). -/
  telemetry : Bool

/-- The provider a step names: providers are named by texts, so any other value
names none. -/
def providerNamed (key : Key) : Option String :=
  match key.value with
  | some (.str t) => some t.toString
  | _ => none

/-- One router step: the state after it, its result and the telemetry sent. -/
def RouterRun.step (s : RouterRun) (step : Json) : RouterRun × Except Fault Json × List Json :=
  let r := s.router
  let now := s.now
  let key : Key := ⟨step.get? "name"⟩
  let missing : Except Fault Json := .error (.notFound (Json.ofString "Provider") key)
  let plain (r : Router) (v : Except Fault Json) : RouterRun × Except Fault Json × List Json :=
    ({ s with router := r }, v, [])
  match strD step "do" "" with
  | "register" =>
    match r.providers.register (providerInputOf (step.getD "provider")) now with
    | .ok (p, providers) => plain { r with providers } (.ok (providerJson p))
    | .error f => plain r (.error f)
  | "unregister" =>
    match providerNamed key with
    | some name =>
      let (providers, removed) := r.providers.unregister name
      plain { r with providers } (.ok (.bool removed))
    | none => plain r (.ok (.bool false))
  | "get" =>
    match providerNamed key with
    | some name =>
      let (p, providers) := r.providers.get name now
      plain { r with providers } (.ok (Json.ofOption providerJson p))
    | none => plain r (.ok .null)
  | "describe" =>
    match providerNamed key with
    | some name =>
      let (p, providers) := r.providers.require name now
      plain { r with providers } (p.map providerJson)
    | none => plain r missing
  | "list" =>
    let (ps, providers) := r.providers.list now
    plain { r with providers } (.ok (.arr (ps.map providerJson)))
  | "enable" =>
    match providerNamed key with
    | some name =>
      let (p, providers) := r.providers.setEnabled name (step.getD "enabled") now
      plain { r with providers } (p.map providerJson)
    | none => plain r missing
  | "set_strategy" =>
    match r.setStrategy (strD step "strategy" "") with
    | .ok (st, r) => plain r (.ok (Json.ofString st.name))
    | .error f => plain r (.error f)
  | "get_strategy" => plain r (.ok r.defaultStrategy.toJson)
  | "route" =>
    match routeRequestOf step with
    | .error f => plain r (.error f)
    | .ok req =>
      match r.route s.breakers req now with
      | (.error f, r, reg, _) => ({ s with router := r, breakers := reg }, .error f, [])
      | (.ok d, r, reg, _) =>
        ({ s with router := r, breakers := reg }, .ok (decisionJson d),
          if s.telemetry then [decisionEntry d] else [])
  | "start" =>
    match providerNamed key with
    | some name => plain (r.recordStart name now) (.ok .null)
    | none => plain { r with balancer := r.balancer.recordStart key.text } (.ok .null)
  | "result" =>
    let c := callReportOf step
    match r.recordResult c now with
    | (.ok (), r) => ({ s with router := r }, .ok .null, if s.telemetry then [resultEntry c] else [])
    | (.error f, r) => ({ s with router := r }, .error f, [])
  | "health" =>
    match r.health s.breakers now with
    | .ok (hs, r, reg, _) => ({ s with router := r, breakers := reg }, .ok (.arr (hs.map healthJson)), [])
    | .error f => plain r (.error f)
  | "metrics" => plain r (.ok (metricsJson r.metrics))
  | "cost_summary" =>
    plain r ((r.ledger.summary (presentOr step "hours" (.num 24)) now).map summaryJson)
  | "load_stats" => plain r (.ok (loadJson r.balancer))
  | "budget" => plain r (r.ledger.status.map budgetJson)
  | "within_budget" => plain r (.ok (.bool (r.ledger.withinBudget (argOr step "additional" 0))))
  | "available" =>
    match providerNamed key with
    | some name =>
      match r.providers.get name now with
      | (some p, providers) =>
        let (ok, providers) := providers.isAvailable p now
        plain { r with providers } (.ok (.bool ok))
      | (none, providers) => plain { r with providers } (.ok .null)
    | none => plain r (.ok .null)
  | "size" => plain r (.ok (Json.ofNat r.providers.size))
  | "has" => plain r (.ok (.bool (((providerNamed key).map r.providers.has).getD false)))
  | "advance" => ({ s with now := now + numD step "ms" 0 }, .ok .null, [])
  | "breaker_get" =>
    match s.breakers.obtain key (fun n => breakerConfigOf n.value (step.getD "config")) now with
    | .ok (b, reg) =>
      let (j, b) := breakerReading b now
      ({ s with breakers := reg.update b }, .ok j, [])
    | .error f => plain r (.error f)
  | "breaker_fail" | "breaker_ok" =>
    match s.breakers.require key with
    | .ok b =>
      let n := repeats step 1
      let outcome : Except Fault Json :=
        if strD step "do" "" == "breaker_ok" then .ok .null else .error (stepFault step)
      let b := repeatCalls b now n outcome
      let (j, b) := breakerReading b now
      ({ s with breakers := s.breakers.update b }, .ok j, [])
    | .error f => plain r (.error f)
  | "breaker_reset" =>
    match s.breakers.require key with
    | .ok b =>
      let (b, _) := b.reset now
      let st := b.readState now
      ({ s with breakers := s.breakers.update st.breaker }, .ok (Json.ofString st.value.name), [])
    | .error f => plain r (.error f)
  | _ => plain r (.ok .null)

/-- A router with the script's providers registered in order. -/
def routerOf (req : Json) (now : Float) : Except Fault Router := do
  let strategy : StrategySetting := match field? req "defaultStrategy" with
    | some (.str t) => match Strategy.ofName? t.toString with
      | some s => .known s
      | none => .other (.str t)
    | some v => .other v
    | none => .known .balanced
  let r := Router.create (limitsOf (req.getD "limits")) (customCostsOf req) (drawsOf req) strategy now
  (items req "providers").foldlM
    (fun (r : Router) p => do
      let (_, providers) ← r.providers.register (providerInputOf p) now
      pure { r with providers })
    r

/-- Runs a router script. -/
def runRouter (req : Json) : Except Fault Json := do
  let start := startOf req
  let router ← routerOf req start
  let run : RouterRun := ⟨router, {}, start, !flag req "telemetryThrows"⟩
  let (_, results) := (items req "steps").foldl
    (fun (acc : RouterRun × List Json) step =>
      let (r, res, sent) := acc.1.step step
      let j := resultJson res
      (r, acc.2 ++ [if sent.isEmpty then j else j.set "telemetry" (.arr sent)]))
    (run, [])
  pure (.arr results)

end LaneGate.Script
