import LaneGate.Routing.Provider
import LaneGate.Text.Units
import LaneGate.Sorting
import LaneGate.Clock.Reading
/-!
# Costs and the spending ledger

A request's size is estimated in tokens: about one token per 1.5 CJK characters
(kana, unified ideographs, Hangul syllables, counted in UTF-16 units) and one per
four other units, rounded down. Its cost is the tokens (input estimate plus expected
output, 500 by default) times the provider's price per thousand; a price set for the
provider's name overrides the provider's own.

The ledger adds up the spending of the current UTC day and month; the first usage
recorded on a new calendar day (or month) starts that total again from zero. It
keeps the last 1000 usage records, from which summaries over the last hours are
drawn. Reported amounts are rounded to 4 places and percentages to 1.

Amounts and token counts are kept as they are given and added as primitives
(`Primitive.add`): a total starts as the number zero, and a count or cost given
as text joins it as text, after which the total reads as a number only while the
joined text still does. Reports round what a total reads as. A price set for a
name is likewise kept as given, and a price set to null counts as not set.

The ledger's clock is a time value in ms, a double that may also stand between
whole milliseconds or be no date at all. A usage is recorded at the whole
millisecond its time names (`Clock.clip?`); recording when the clock, or the start
of the current day, is no date fails with `Invalid time value`.
-/

namespace LaneGate

/-- Whether a code unit is a CJK character for token estimation. -/
def isCjkUnit (u : UInt16) : Bool :=
  (0x3040 ≤ u && u ≤ 0x30FF) || (0x4E00 ≤ u && u ≤ 0x9FFF) || (0xAC00 ≤ u && u ≤ 0xD7A3)

/-- The estimated number of tokens of a text. -/
def estimateTokens (text : String) : Nat :=
  let units := (Text.ofString text).units
  let cjk := (units.filter isCjkUnit).length
  let other := units.length - cjk
  (Decimal.floorOf (cjk.toFloat / 1.5 + other.toFloat / 4)).toUInt64.toNat

/-- The default number of output tokens a request is expected to produce. -/
def defaultOutputTokens : Float := 500

/-- The most usage records a ledger keeps. -/
def maxUsageRecords : Nat := 1000

/-- Spending limits in USD, and the share of either limit that raises an alert,
each as given (and read as a number where it is compared or divided by); other
settings given with them are kept and shown with them. -/
structure Limits where
  /-- Spending allowed per UTC day. -/
  dailyLimit : Json := .num 10
  /-- Spending allowed per UTC month. -/
  monthlyLimit : Json := .num 100
  /-- The share of a limit at which an alert is raised. -/
  alertThreshold : Json := .num 0.8
  /-- Other settings given with the limits. -/
  others : List (String × Json) := []

namespace Limits

/-- The limits with the members of a value set on top: the three limits replaced by
their given values (`null` included), other members kept. -/
def withMembers (l : Limits) (ms : List (String × Json)) : Limits :=
  ms.foldl (fun l (k, v) =>
    match k with
    | "dailyLimit" => { l with dailyLimit := v }
    | "monthlyLimit" => { l with monthlyLimit := v }
    | "alertThreshold" => { l with alertThreshold := v }
    | _ => { l with others := Json.setMember l.others k v }) l

/-- The daily limit as a primitive. -/
def daily (l : Limits) : Primitive := Primitive.ofJson l.dailyLimit

/-- The monthly limit as a primitive. -/
def monthly (l : Limits) : Primitive := Primitive.ofJson l.monthlyLimit

/-- The alert share as a primitive. -/
def alert (l : Limits) : Primitive := Primitive.ofJson l.alertThreshold

end Limits

/-- An estimate of a request's cost on one provider. -/
structure CostEstimate where
  /-- The provider's name. -/
  provider : String
  /-- Input estimate plus expected output. -/
  estimatedTokens : Primitive
  /-- The price used, as given. -/
  costPer1kTokens : Json
  /-- Tokens times price per thousand. -/
  estimatedCost : Float

/-- One recorded usage. -/
structure Usage where
  /-- The provider's name. -/
  provider : String
  /-- Tokens used. -/
  tokens : Primitive
  /-- What it cost. -/
  cost : Primitive
  /-- When it was recorded, as ISO text. -/
  recordedAt : String

/-- The spending ledger. -/
structure Ledger where
  /-- The limits. -/
  limits : Limits := {}
  /-- Prices set by provider name, as given. -/
  customCosts : List (String × Json) := []
  /-- Spent in the current day. -/
  dailySpent : Primitive := .num 0
  /-- Spent in the current month. -/
  monthlySpent : Primitive := .num 0
  /-- When the daily total last started from zero. -/
  lastDailyReset : Float
  /-- When the monthly total last started from zero. -/
  lastMonthlyReset : Float
  /-- The last usage records, oldest first. -/
  records : List Usage := []

/-- A ledger's spending against its limits, rounded for reporting. -/
structure BudgetStatus where
  /-- The limits. -/
  limits : Limits
  /-- Spent today. -/
  dailySpent : Float
  /-- Spent this month. -/
  monthlySpent : Float
  /-- Left today. -/
  dailyRemaining : Float
  /-- Left this month. -/
  monthlyRemaining : Float
  /-- Share of the daily limit spent, in percent. -/
  dailyUsagePercent : Float
  /-- Share of the monthly limit spent, in percent. -/
  monthlyUsagePercent : Float
  /-- When the daily total last started from zero. -/
  lastDailyReset : Float
  /-- When the monthly total last started from zero. -/
  lastMonthlyReset : Float

/-- One provider's running totals in a summary. -/
structure ProviderTally where
  /-- Its cost. -/
  cost : Primitive
  /-- Its tokens. -/
  tokens : Primitive
  /-- Its number of usages. -/
  requests : Nat

/-- One provider's part of a summary. -/
structure ProviderCost where
  /-- Its cost, rounded. -/
  cost : Float
  /-- Its tokens. -/
  tokens : Primitive
  /-- Its number of usages. -/
  requests : Nat

/-- The spending over the last hours. -/
structure CostSummary where
  /-- The hours looked back, as given. -/
  periodHours : Json
  /-- Their cost, rounded. -/
  totalCost : Float
  /-- Their tokens. -/
  totalTokens : Primitive
  /-- Their number of usages. -/
  totalRequests : Nat
  /-- By provider, in order of first usage. -/
  byProvider : List (String × ProviderCost)
  /-- The budget status now. -/
  budget : BudgetStatus

namespace Ledger

/-- A new ledger whose totals start now. -/
def create (limits : Limits) (customCosts : List (String × Json)) (now : Float) : Ledger :=
  { limits, customCosts, lastDailyReset := now, lastMonthlyReset := now }

/-- The price per thousand tokens for a provider, as given: the price set for its
name unless that is missing or null, else its own. -/
def priceGiven (l : Ledger) (p : Provider) : Json :=
  match l.customCosts.find? (·.1 == p.name) with
  | some (_, .null) | none => .num p.costPer1kTokens
  | some (_, c) => c

/-- The price per thousand tokens used for a provider, as a number. -/
def costPer1k (l : Ledger) (p : Provider) : Float :=
  (Primitive.ofJson (l.priceGiven p)).toNumber

/-- The estimated cost of a request on a provider: the input's tokens plus the
expected output, which is added as given. -/
def estimate (l : Ledger) (p : Provider) (inputText : String)
    (outputTokens : Primitive := .num defaultOutputTokens) : CostEstimate :=
  let tokens := Primitive.add (.num (estimateTokens inputText).toFloat) outputTokens
  ⟨p.name, tokens, l.priceGiven p, tokens.toNumber / 1000 * l.costPer1k p⟩

/-- Providers with their estimates, cheapest first, equal costs in the given order. -/
def rank (l : Ledger) (ps : List Provider) (inputText : String)
    (outputTokens : Primitive := .num defaultOutputTokens) : List (Provider × CostEstimate) :=
  Sorting.sortOn (·.2.estimatedCost) (ps.map fun p => (p, l.estimate p inputText outputTokens))

/-- Records a usage now; a new UTC day or month starts its total from zero first. -/
def record (l : Ledger) (provider : String) (tokens cost : Primitive) (now : Float) :
    Except Fault Ledger :=
  match Clock.clip? now, Clock.clip? l.lastDailyReset, Clock.clip? l.lastMonthlyReset with
  | some t, some day, some month =>
    let l :=
      if Clock.dayText t != Clock.dayText day then
        { l with dailySpent := .num 0, lastDailyReset := now } else l
    let l :=
      if Clock.monthText t != Clock.monthText month then
        { l with monthlySpent := .num 0, lastMonthlyReset := now } else l
    let records := l.records ++ [⟨provider, tokens, cost, Clock.iso t⟩]
    .ok { l with
      dailySpent := l.dailySpent.add cost
      monthlySpent := l.monthlySpent.add cost
      records := records.drop (records.length - maxUsageRecords) }
  | _, _, _ => .error .invalidTime

/-- Whether an additional cost fits both limits: the daily total with it must not
exceed the daily limit, and the monthly total with it must be at most the monthly
limit (a total that is not a number fits neither). -/
def withinBudget (l : Ledger) (additional : Primitive := .num 0) : Bool :=
  if Primitive.lessThan l.limits.daily (l.dailySpent.add additional) then false
  else Primitive.atMost (l.monthlySpent.add additional) l.limits.monthly

/-- The share of a limit spent (zero for a limit that is not positive). -/
def usage (spent : Float) (limit : Primitive) : Float :=
  if Primitive.lessThan (.num 0) limit then spent / limit.toNumber else 0

/-- Whether either total has reached the alert share of its limit. -/
def shouldAlert (l : Ledger) : Bool :=
  usage l.dailySpent.toNumber l.limits.daily ≥ l.limits.alert.toNumber ||
    usage l.monthlySpent.toNumber l.limits.monthly ≥ l.limits.alert.toNumber

/-- A percentage of a limit spent, to one place (zero for a limit that is not
positive). -/
def percent (spent : Float) (limit : Primitive) : Float :=
  if Primitive.lessThan (.num 0) limit then Decimal.roundTo (spent / limit.toNumber * 100) 1 else 0

/-- The ledger's spending against its limits; it fails when the start of the day's
or the month's total is no date. -/
def status (l : Ledger) : Except Fault BudgetStatus :=
  let daily := l.dailySpent.toNumber
  let monthly := l.monthlySpent.toNumber
  if (Clock.clip? l.lastDailyReset).isNone || (Clock.clip? l.lastMonthlyReset).isNone then
    .error .invalidTime
  else .ok {
    limits := l.limits
    dailySpent := Decimal.roundTo daily 4
    monthlySpent := Decimal.roundTo monthly 4
    dailyRemaining := Decimal.roundTo (l.limits.daily.toNumber - daily) 4
    monthlyRemaining := Decimal.roundTo (l.limits.monthly.toNumber - monthly) 4
    dailyUsagePercent := percent daily l.limits.daily
    monthlyUsagePercent := percent monthly l.limits.monthly
    lastDailyReset := l.lastDailyReset
    lastMonthlyReset := l.lastMonthlyReset }

/-- Adds a usage to per-provider totals kept in order of first usage. -/
def addTo (acc : List (String × ProviderTally)) (u : Usage) : List (String × ProviderTally) :=
  let fresh : ProviderTally := ⟨.num 0, .num 0, 0⟩
  let bump (c : ProviderTally) : ProviderTally := ⟨c.cost.add u.cost, c.tokens.add u.tokens, c.requests + 1⟩
  if acc.any (·.1 == u.provider) then
    acc.map fun (n, c) => if n == u.provider then (n, bump c) else (n, c)
  else acc ++ [(u.provider, bump fresh)]

/-- The spending recorded in the last `hours` hours (from `now` back); the
hours are kept as given and read as a number. It fails as `status` does. -/
def summary (l : Ledger) (hours : Json) (now : Float) : Except Fault CostSummary := do
  let budget ← l.status
  let cutoff := now - (Primitive.ofJson hours).toNumber * 3600000
  let recent := l.records.filter fun u => Clock.readDate u.recordedAt ≥ cutoff
  let byProvider := recent.foldl addTo []
  pure {
    periodHours := hours
    totalCost := Decimal.roundTo (recent.foldl (fun (s : Primitive) u => s.add u.cost) (.num 0)).toNumber 4
    totalTokens := recent.foldl (fun (s : Primitive) u => s.add u.tokens) (.num 0)
    totalRequests := recent.length
    byProvider := byProvider.map fun (n, c) =>
      (n, ⟨Decimal.roundTo c.cost.toNumber 4, c.tokens, c.requests⟩)
    budget }

end Ledger

end LaneGate
