import LaneGate.Wire.Breaker
import LaneGate.Routing.Router
import LaneGate.Store.Tables
import LaneGate.Json.Record
/-!
# Routing as JSON

The JSON shapes of the routing side: providers with all their fields, load figures,
spending limits, budget status, cost summaries and estimates, provider health, and
usage totals read back from the tables.
-/

namespace LaneGate.Wire

open Store

/-- A provider with all its fields (the model left out when it was never given). -/
def providerJson (p : Provider) : Json :=
  .obj ([("name", Json.ofString p.name), ("kind", Json.ofString p.kind.name)] ++
    (p.model.map ("model", ·)).toList ++
    [("priority", .num p.priority), ("weight", .num p.weight),
    ("costPer1kTokens", .num p.costPer1kTokens), ("avgLatencyMs", .num p.avgLatencyMs),
    ("maxTokens", p.maxTokens), ("capabilities", .arr p.capabilities),
    ("enabled", p.enabled), ("rateLimitRpm", .num p.rateLimitRpm),
    ("currentRpm", p.currentRpm), ("circuitBreakerName", p.circuitBreakerName),
    ("successRate", p.successRate), ("lastUsedAt", p.lastUsedAt)])

/-- One provider's load figures as JSON. -/
def loadStatsJson (s : LoadStats) : Json :=
  .obj [("activeRequests", Json.ofNat s.activeRequests), ("sampleCount", Json.ofNat s.sampleCount),
    ("avgResponseTimeMs", .num s.avgResponseTimeMs), ("minResponseTimeMs", .num s.minResponseTimeMs),
    ("maxResponseTimeMs", .num s.maxResponseTimeMs)]

/-- The load figures of every provider seen, under the text of its name; two names
with one text share a member, which holds the figures of the later. -/
def loadJsonBy {κ : Type} [BEq κ] (keyText : κ → String) (b : Balancer κ) : Json :=
  b.stats.foldl (fun acc (n, s) => acc.assign (keyText n) (loadStatsJson s)) (.obj [])

/-- The load figures of every provider seen, by name. -/
def loadJson (b : Balancer String) : Json := loadJsonBy id b

/-- Spending limits as JSON, with the other settings given with them. -/
def limitsJson (l : Limits) : Json :=
  .obj ([("dailyLimit", l.dailyLimit), ("monthlyLimit", l.monthlyLimit),
    ("alertThreshold", l.alertThreshold)] ++ l.others)

/-- A budget status as JSON: the limits, then what was spent and what is left (which
replace any setting of the same name). -/
def budgetJson (s : BudgetStatus) : Json :=
  [("dailySpent", Json.num s.dailySpent), ("monthlySpent", .num s.monthlySpent),
    ("dailyRemaining", .num s.dailyRemaining), ("monthlyRemaining", .num s.monthlyRemaining),
    ("dailyUsagePercent", .num s.dailyUsagePercent), ("monthlyUsagePercent", .num s.monthlyUsagePercent),
    ("lastDailyReset", instantAt s.lastDailyReset), ("lastMonthlyReset", instantAt s.lastMonthlyReset)].foldl
    (fun acc (k, v) => acc.set k v) (limitsJson s.limits)

/-- A cost summary as JSON. -/
def summaryJson (s : CostSummary) : Json :=
  .obj [("periodHours", s.periodHours), ("totalCost", .num s.totalCost),
    ("totalTokens", s.totalTokens.toJson), ("totalRequests", Json.ofNat s.totalRequests),
    ("byProvider", .obj ((Json.ownMembers s.byProvider).map fun (n, c) =>
      (n, .obj [("cost", .num c.cost), ("tokens", c.tokens.toJson), ("requests", Json.ofNat c.requests)]))),
    ("budget", budgetJson s.budget)]

/-- A cost estimate as JSON. -/
def estimateJson (e : CostEstimate) : Json :=
  .obj [("provider", Json.ofString e.provider), ("estimatedTokens", e.estimatedTokens.toJson),
    ("costPer1kTokens", e.costPer1kTokens), ("estimatedCost", .num e.estimatedCost),
    ("currency", Json.ofString "USD")]

/-- A provider's health as JSON. -/
def healthJson (h : Health) : Json :=
  .obj [("name", Json.ofString h.name), ("isHealthy", .bool h.isHealthy),
    ("circuitState", Json.ofOption (fun s => Json.ofString s.name) h.circuitState),
    ("successRate", h.successRate), ("avgLatencyMs", .num h.avgLatencyMs),
    ("lastCheckAt", instantAt h.lastCheckAt)]

/-- A usage total as a row. -/
def usageTotalJson (u : UsageTotal) : Json :=
  .obj [("provider", Json.ofString u.provider), ("requests", Json.ofNat u.requests),
    ("failures", Json.ofNat u.failures), ("tokens", .num u.tokens), ("cost", .num u.cost)]

/-- A stored value as JSON. -/
def cellJson : Store.Cell → Json
  | .null => .null
  | .int i => Json.ofInt i
  | .real x => .num x
  | .text s => Json.ofString s

end LaneGate.Wire
