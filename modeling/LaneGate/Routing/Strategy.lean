import LaneGate.Fault
import LaneGate.Text.Blank
import LaneGate.Text.Case
import LaneGate.Json.Shown
/-!
# Routing strategies

How the router picks among the providers that may take a request: cheapest,
fastest, best priority, a weighted balance of the three, the best priority with the
rest as failovers, or in turn. A strategy is named in lower case with underscores;
reading a name ignores surrounding blanks and case.
-/

namespace LaneGate

/-- A way of choosing a provider. -/
inductive Strategy where
  /-- The lowest estimated cost. -/
  | costOptimized
  /-- The lowest expected latency. -/
  | latencyOptimized
  /-- The best (lowest) priority. -/
  | qualityOptimized
  /-- The lowest weighted score of cost, latency and priority. -/
  | balanced
  /-- The best priority, the others as failovers. -/
  | failover
  /-- Each provider in turn. -/
  | roundRobin
  deriving DecidableEq, Repr, Inhabited

namespace Strategy

/-- All strategies, in their documented order. -/
def all : List Strategy :=
  [.costOptimized, .latencyOptimized, .qualityOptimized, .balanced, .failover, .roundRobin]

/-- The name of a strategy. -/
def name : Strategy → String
  | .costOptimized => "cost_optimized"
  | .latencyOptimized => "latency_optimized"
  | .qualityOptimized => "quality_optimized"
  | .balanced => "balanced"
  | .failover => "failover"
  | .roundRobin => "round_robin"

/-- The strategy of an exact name. -/
def ofName? (s : String) : Option Strategy := all.find? (·.name == s)

theorem ofName?_name (s : Strategy) : ofName? s.name = some s := by
  cases s <;> rfl

/-- Reads a strategy name, ignoring surrounding blanks and case. -/
def parse (raw : String) : Except Fault Strategy :=
  match ofName? (Text.lower (Text.trim raw)) with
  | some s => .ok s
  | none => .error (.configuration ("Invalid routing strategy '" ++ raw ++ "'. Expected one of: " ++
      ", ".intercalate (all.map name) ++ "."))

end Strategy

/-- A router's strategy as it was set: a known strategy, or another value given for
it, which names none (nothing can be chosen by it, and it is shown as given). -/
inductive StrategySetting where
  /-- A known strategy. -/
  | known (s : Strategy)
  /-- Any other value, as given. -/
  | other (given : Json)

namespace StrategySetting

/-- The setting as JSON: a strategy's name, or the value given. -/
def toJson : StrategySetting → Json
  | .known s => Json.ofString s.name
  | .other j => j

/-- The setting as a text: a strategy's name, or the text of the value given. -/
def text : StrategySetting → String
  | .known s => s.name
  | .other j => Json.shown j

end StrategySetting

end LaneGate
