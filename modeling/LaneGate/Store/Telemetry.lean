import LaneGate.Store.Tables
import LaneGate.Wire.Breaker
import LaneGate.Routing.Router
import LaneGate.Json.Writer
import LaneGate.Clock
/-!
# Telemetry rows

What the breakers and the router report is kept as table rows: a breaker event
with its counters written out as JSON text, a routing decision with its
alternatives as JSON text and its score (none when infinite, which a column cannot
hold), and a finished call with the time it was reported. Counters are written as
the breakers show them.
-/

namespace LaneGate.Store

/-- The row of a breaker event under an id. -/
def breakerRowOf (id : String) (e : Breaker.Event) : BreakerRow :=
  { id := some id, breaker := e.breaker.shown, eventType := e.kind.name, prevState := e.fromState.name,
    newState := e.toState.name, reason := e.reason, statsJson := Json.render (Wire.statsJson e.stats),
    createdAt := Clock.isoAt e.happenedAt }

/-- The row of a routing decision under an id. -/
def decisionRowOf (id : String) (d : Decision) : DecisionRow :=
  { id := some id, correlationId := d.correlationId, provider := d.provider.name, strategy := d.strategy.text,
    score := if d.score.isNaN || d.score.isInf then .null else .real d.score,
    alternativesJson := Json.render (Json.ofStrings d.alternatives), reason := d.reason,
    createdAt := Clock.isoAt d.decidedAt }

end LaneGate.Store
