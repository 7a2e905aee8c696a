import LaneGate.Wire.Routing
import LaneGate.Json.Record
/-!
# Control-plane data as JSON

The JSON shapes the control plane answers with that no other part shows: a routing
decision as a caller sees it (the provider by name and model, an infinite score as
`null`), the routing counters with the mean time a decision took, and breaker
states by name.
-/

namespace LaneGate.Wire

/-- A routing decision as a caller sees it. -/
def decisionData (d : Decision) : Json :=
  .obj ([("provider", Json.ofString d.provider.name)] ++ (d.provider.model.map ("model", ·)).toList ++
    [("strategy", d.strategy.toJson),
    ("score", if Decimal.isFinite d.score then .num d.score else .null),
    ("alternatives", Json.ofStrings d.alternatives), ("reason", Json.ofString d.reason),
    ("correlationId", Json.ofOption Json.ofString d.correlationId), ("decidedAt", instantAt d.decidedAt)])

/-- Routing counters, with the mean time a decision took. -/
def routingMetricsJson (m : RouteMetrics) (avgRoutingTimeMs : Float) : Json :=
  .obj [("totalRequests", Json.ofNat m.totalRequests), ("requestsByProvider", Json.tally m.requestsByProvider),
    ("requestsByStrategy", Json.tally m.requestsByStrategy), ("avgRoutingTimeMs", .num avgRoutingTimeMs),
    ("fallbackCount", Json.ofNat m.fallbackCount)]

/-- Breaker states by name. -/
def statesJson (xs : List (Key × (Breaker.State × Breaker.Stats))) : Json :=
  xs.foldl (fun acc (n, st, _) => acc.assign n.text (Json.ofString st.name)) (.obj [])

end LaneGate.Wire
