import LaneGate.Routing.Strategy
import LaneGate.Routing.Provider
import LaneGate.Routing.Cost
import LaneGate.Routing.Balance
import LaneGate.Breaker.Registry
import LaneGate.Sorting
import LaneGate.Json.Record
/-!
# The router

The router picks a provider for a request. The candidates are the registered
providers, in registration order, that pass these filters in turn: not excluded by
the request, enabled, offering every required capability, not guarded by an open
breaker (looking at a breaker's state may move it to half-open), and available
(enabled and below the rate limit). The strategy ranks the candidates; lower scores
win:

* cost: the estimated cost, cheapest first, ties in order, up to 3 alternatives;
* latency: the least expected latency, the other candidates as alternatives (3);
* quality: the lowest priority, ties in order, up to 3 alternatives;
* failover: as quality, with every other candidate as a failover;
* round robin: the balancer's next candidate, score 0;
* balanced: `0.3 · cost + 0.3 · latency + 0.4 · priority`, each divided by its largest
  value among the candidates (a term is 0 when that largest value is not positive).

With no provider at all the request is refused; with providers but no candidate the
first provider is returned with an infinite score and counted as a fallback.
Completed calls are fed back into the balancer, the ledger (calls that cost
something) and the provider's moving averages, with weight 0.1 for the new call.
-/

namespace LaneGate

/-- The weight of a new call in a provider's moving averages. -/
def emaAlpha : Float := 0.1

/-- The most alternatives a decision lists (failover lists all). -/
def maxAlternatives : Nat := 3

/-- The reason given for the no-candidate fallback. -/
def noProviderReason : String := "No available providers, using fallback"

/-- What a request asks of the router. -/
structure RouteRequest where
  /-- The text to be sent, for cost estimates. -/
  inputText : String
  /-- The strategy, or the router's default. -/
  strategy : Option Strategy := none
  /-- Capabilities every candidate must offer. -/
  requiredCapabilities : List String := []
  /-- Providers that must not be chosen. -/
  excludedProviders : List String := []
  /-- A caller's id for the request. -/
  correlationId : Option String := none

/-- The router's choice. -/
structure Decision where
  /-- The chosen provider. -/
  provider : Provider
  /-- The strategy used (as set, for the no-candidate fallback). -/
  strategy : StrategySetting
  /-- Its score; lower is better, infinite for the fallback. -/
  score : Float
  /-- The names of the next best candidates. -/
  alternatives : List String
  /-- Why it was chosen. -/
  reason : String
  /-- The caller's id for the request. -/
  correlationId : Option String
  /-- When the decision was made. -/
  decidedAt : Float

/-- Counts of routed requests. The counts by name are ordinary objects filled by
`(value ?? 0) + 1` (`bump`), listed in order of first use: under a name the object does
not inherit, the count; under an inherited name other than `__proto__`, the number of
`1`s appended to the inherited function's text, which is what the object holds there
(`Json.tallyValue`); never under `__proto__`, where the assignment is lost. -/
structure RouteMetrics where
  /-- Requests routed to a candidate, and requests whose strategy named none. -/
  totalRequests : Nat := 0
  /-- By provider name. -/
  requestsByProvider : List (String × Nat) := []
  /-- By strategy name. -/
  requestsByStrategy : List (String × Nat) := []
  /-- Requests answered with the no-candidate fallback. -/
  fallbackCount : Nat := 0

/-- A finished call, as reported to the router; the figures are kept as given. -/
structure CallReport where
  /-- The provider called, as named. -/
  providerName : Key
  /-- Whether the call succeeded (any value that counts as true; none when not
  given). -/
  success : Option Json
  /-- How long it took, in ms (none when not given). -/
  latencyMs : Option Json
  /-- Tokens used. -/
  tokensUsed : Json := .num 0
  /-- What it cost. -/
  cost : Json := .num 0

/-- A provider's health as reported. -/
structure Health where
  /-- The provider's name. -/
  name : String
  /-- Available and not behind an open breaker. -/
  isHealthy : Bool
  /-- The state of its breaker, if it has one that exists. -/
  circuitState : Option Breaker.State
  /-- Its success rate, as the provider holds it. -/
  successRate : Json
  /-- Its average latency. -/
  avgLatencyMs : Float
  /-- When this was checked. -/
  lastCheckAt : Float

/-- The router's state. -/
structure Router where
  /-- The registered providers. -/
  providers : Providers := {}
  /-- The spending ledger. -/
  ledger : Ledger
  /-- The load balancer. -/
  balancer : Balancer String := {}
  /-- The strategy used when a request names none. -/
  defaultStrategy : StrategySetting := .known .balanced
  /-- Counts of routed requests. -/
  metrics : RouteMetrics := {}

/-- The balancer's view of a provider. -/
def Provider.candidate (p : Provider) : Candidate String := ⟨p.name, p.weight, some (.num p.avgLatencyMs)⟩

/-- `value / max`, or 0 when `max` is not positive. -/
def normalized (value max : Float) : Float := if max > 0 then value / max else 0

/-- The names of the candidates other than the chosen one. -/
def othersThan (cs : List Provider) (chosen : Provider) : List String :=
  (cs.filter (·.name != chosen.name)).map (·.name)

/-- A table of counts after one more under a name, as an ordinary object filled by
`(value ?? 0) + 1` keeps it: one more under the name, except under `__proto__`, where
the assignment sets the object's prototype and the count is lost. -/
def bump (xs : List (String × Nat)) (key : String) : List (String × Nat) :=
  if key == Json.prototypeName then xs else upsert xs key fun n => n.getD 0 + 1

/-- The counts with one more request routed to a provider by a strategy. -/
def RouteMetrics.count (m : RouteMetrics) (provider : String) (strategy : Strategy) : RouteMetrics :=
  { m with
    totalRequests := m.totalRequests + 1
    requestsByProvider := bump m.requestsByProvider provider
    requestsByStrategy := bump m.requestsByStrategy strategy.name }

namespace Router

/-- A new router whose ledger starts now. -/
def create (limits : Limits) (customCosts : List (String × Json)) (draws : Draws)
    (defaultStrategy : StrategySetting) (now : Float) : Router :=
  { ledger := Ledger.create limits customCosts now, balancer := { draws }, defaultStrategy }

/-- The state of the breaker guarding a provider, if it names one (by a value that
counts as true) that exists (looking at it may move it to half-open). -/
def circuitState (reg : Breaker.Registry) (p : Provider) (now : Float) :
    Option Breaker.State × Breaker.Registry × List Breaker.Event :=
  if !p.circuitBreakerName.truthy then (none, reg, [])
  else
    match reg.find? ⟨some p.circuitBreakerName⟩ with
    | none => (none, reg, [])
    | some b =>
      let s := b.readState now
      (some s.value, reg.update s.breaker, s.events)

/-- One provider through the filters, in order: the request's exclusions, the enabled
flag, the capabilities, the breaker (looking at it may move it to half-open) and
availability (which may roll its window over); a provider that passes joins the
candidates. -/
def sift (req : RouteRequest) (now : Float)
    (acc : List Provider × Router × Breaker.Registry × List Breaker.Event) (p : Provider) :
    List Provider × Router × Breaker.Registry × List Breaker.Event :=
  let (cs, r, reg, evs) := acc
  if req.excludedProviders.contains p.name then acc
  else if !p.enabled.truthy then acc
  else if !req.requiredCapabilities.all p.can then acc
  else
    let (st, reg, evs') := circuitState reg p now
    if st == some .opened then (cs, r, reg, evs ++ evs')
    else
      let (ok, providers) := r.providers.isAvailable p now
      let r := { r with providers }
      (if ok then cs ++ [p] else cs, r, reg, evs ++ evs')

/-- The providers that may take a request, in registration order. -/
def candidates (r : Router) (reg : Breaker.Registry) (all : List Provider) (req : RouteRequest)
    (now : Float) : List Provider × Router × Breaker.Registry × List Breaker.Event :=
  all.foldl (sift req now) ([], r, reg, [])

/-- Chooses among non-empty candidates by a strategy. -/
def select (r : Router) (cs : List Provider) (inputText : String) (strategy : Strategy)
    (correlationId : Option String) (now : Float) : Decision × Router :=
  let decide (p : Provider) (score : Float) (alts : List String) (reason : String) : Decision :=
    ⟨p, .known strategy, score, alts, reason, correlationId, now⟩
  let first := cs.headD default
  match strategy with
  | .costOptimized =>
    match r.ledger.rank cs inputText with
    | (p, e) :: rest =>
      (decide p e.estimatedCost ((rest.take maxAlternatives).map (·.1.name))
        ("Lowest cost: $" ++ Decimal.fixedText e.estimatedCost 6), r)
    | [] => (decide first 0 [] "", r)
  | .latencyOptimized =>
    let cands := cs.map Provider.candidate
    let p := match r.balancer.fastest cands with
      | some i => cs.getD i first
      | none => first
    let latency := (Primitive.ofOption (r.balancer.expectedLatency p.candidate)).toNumber
    (decide p latency ((othersThan cs p).take maxAlternatives)
      ("Lowest latency: " ++ Decimal.numberText (Decimal.roundHalfUp latency) ++ "ms"), r)
  | .qualityOptimized | .failover =>
    match Sorting.sortOn (·.priority) cs with
    | p :: rest =>
      if strategy == .failover then
        (decide p p.priority (rest.map (·.name))
          ("Primary: " ++ p.name ++ ", failovers: " ++ toString rest.length), r)
      else
        (decide p p.priority ((rest.take maxAlternatives).map (·.name))
          ("Highest quality (priority " ++ Decimal.numberText p.priority ++ ")"), r)
    | [] => (decide first 0 [] "", r)
  | .roundRobin =>
    let (i, balancer) := r.balancer.nextInTurn cs.length
    let p := match i with
      | some i => cs.getD i first
      | none => first
    (decide p 0 ((othersThan cs p).take maxAlternatives) "Round robin selection",
      { r with balancer })
  | .balanced =>
    let costs := cs.map r.ledger.costPer1k
    let maxCost := Decimal.maximum costs
    let maxLatency := Decimal.maximum (cs.map (·.avgLatencyMs))
    let maxPriority := Decimal.maximum (cs.map (·.priority))
    let scored := (cs.zip costs).map fun (p, c) =>
      (p, 0.3 * normalized c maxCost + 0.3 * normalized p.avgLatencyMs maxLatency +
        0.4 * normalized p.priority maxPriority)
    match Sorting.sortOn (·.2) scored with
    | (p, s) :: rest =>
      (decide p s ((rest.take maxAlternatives).map (·.1.name))
        ("Balanced score: " ++ Decimal.fixedText s 3), r)
    | [] => (decide first 0 [] "", r)

/-- Chooses among the candidates: with none, the first provider, counted as a
fallback; otherwise the strategy's pick, counted under the provider and the strategy.
A strategy set to a value that names none picks nothing: the request is counted in
the total, and reading the provider of the missing decision fails. -/
def choose (r : Router) (first : Provider) (cs : List Provider) (setting : StrategySetting)
    (req : RouteRequest) (now : Float) : Except Fault Decision × Router :=
  if cs.isEmpty then
    let r := { r with metrics := { r.metrics with fallbackCount := r.metrics.fallbackCount + 1 } }
    if (Clock.clip? now).isNone then (.error .invalidTime, r)
    else (.ok ⟨first, setting, Decimal.infinity, [], noProviderReason, req.correlationId, now⟩, r)
  else
    match setting with
    | .other _ =>
      (.error .wrongType, { r with metrics := { r.metrics with totalRequests := r.metrics.totalRequests + 1 } })
    | .known strategy =>
      let (d, r) := r.select cs req.inputText strategy req.correlationId now
      if (Clock.clip? now).isNone then (.error .invalidTime, r)
      else (.ok d, { r with metrics := r.metrics.count d.provider.name strategy })

/-- Routes a request: the decision, or a refusal when no provider is registered. A
strategy set to a value that names none fails once there are candidates to choose
from (after the candidates were looked at). -/
def route (r : Router) (reg : Breaker.Registry) (req : RouteRequest) (now : Float) :
    Except Fault Decision × Router × Breaker.Registry × List Breaker.Event :=
  let setting := match req.strategy with
    | some s => .known s
    | none => r.defaultStrategy
  let (all, providers) := r.providers.list now
  let r := { r with providers }
  match all with
  | [] => (.error (.configuration "No LLM providers configured"), r, reg, [])
  | first :: _ =>
    let (cs, r, reg, evs) := r.candidates reg all req now
    let (out, r) := r.choose first cs setting req now
    (out, r, reg, evs)

/-- Counts a request started on a provider. -/
def recordStart (r : Router) (name : String) (now : Float) : Router :=
  { r with balancer := r.balancer.recordStart name, providers := r.providers.recordStart name now }

/-- Feeds a finished call back, in this order: the balancer, the ledger (if the cost
is above zero) and the provider's moving averages (if a provider of that name is
registered). A failure (a time that is no date) stops the feedback there. -/
def recordResult (r : Router) (c : CallReport) (now : Float) : Except Fault Unit × Router :=
  let r := { r with balancer := r.balancer.recordEnd c.providerName.text (Primitive.ofOption c.latencyMs) }
  let cost := Primitive.ofJson c.cost
  let recorded : Except Fault Ledger :=
    if Primitive.lessThan (.num 0) cost then
      r.ledger.record c.providerName.text (Primitive.ofJson c.tokensUsed) cost now
    else .ok r.ledger
  match recorded with
  | .error f => (.error f, r)
  | .ok ledger =>
    let r := { r with ledger }
    match c.providerName.value with
    | some (.str t) =>
      let (done, providers) := r.providers.recordOutcome t.toString (c.success.any Json.truthy)
        (Primitive.ofOption c.latencyMs).toNumber emaAlpha now
      (done, { r with providers })
    | _ => (.ok (), r)

/-- Every provider's health, in registration order; it fails at once when now is no
date. -/
def health (r : Router) (reg : Breaker.Registry) (now : Float) :
    Except Fault (List Health × Router × Breaker.Registry × List Breaker.Event) :=
  if (Clock.clip? now).isNone then .error .invalidTime else
  let (all, providers) := r.providers.list now
  let r := { r with providers }
  all.foldl (fun (acc : List Health × Router × Breaker.Registry × List Breaker.Event) p =>
      let (hs, r, reg, evs) := acc
      let (st, reg, evs') := circuitState reg p now
      let (ok, providers) := r.providers.isAvailable p now
      let h : Health := ⟨p.name, ok && st != some .opened, st, p.successRate, p.avgLatencyMs, now⟩
      (hs ++ [h], { r with providers }, reg, evs ++ evs'))
    ([], r, reg, [])
  |> .ok

/-- Sets the default strategy from a name. -/
def setStrategy (r : Router) (raw : String) : Except Fault (Strategy × Router) := do
  let s ← Strategy.parse raw
  pure (s, { r with defaultStrategy := .known s })

end Router

end LaneGate
