import LaneGate.Store.Bind
/-!
# The telemetry and runbook tables

The service keeps four tables: routing decisions, breaker events, call usage and
runbook passages.

* Routing decisions and breaker events have text ids, which must be unique: a
  second row with an id already present is refused with the database's own message
  (`UNIQUE constraint failed: <table>.id`) and nothing is written. An id may also be
  missing; missing ids never clash. After each decision is written, only the newest
  rows are kept (at least 50; 500 by default), newest by creation time, rows of the
  same time in the order they were written; a row without an id is never removed.
* Usage rows and passages get increasing integer ids from 1; ids are never reused.
  A usage row's latency, tokens and cost must be given (a not-a-number is not):
  otherwise the row is refused with `NOT NULL constraint failed: <table>.<column>`.
* Listings are newest first, cut to a bounded number of rows. Among rows of the same
  creation time, decisions come in the order they were written and breaker events in
  the reverse order. A bound that is not a 64-bit integer once floored and clamped
  (not-a-number, an infinity, a huge number) is a `datatype mismatch`
  (`Cell.rowCount`).
* Usage is added up per provider, providers in text order, over the rows created at
  or after an instant, with the database's sums (`Summation`).
* Texts are kept as UTF-8 keeps them: an unpaired surrogate becomes U+FFFD.
-/

namespace LaneGate.Store

/-- A stored routing decision. -/
structure DecisionRow where
  /-- Its unique id, if it has one. -/
  id : Option String
  /-- The request it belongs to, if known. -/
  correlationId : Option String
  /-- The provider chosen. -/
  provider : String
  /-- The strategy used. -/
  strategy : String
  /-- Its score, as a column of doubles keeps it. -/
  score : Cell
  /-- The alternatives, as JSON text. -/
  alternativesJson : String
  /-- Why. -/
  reason : String
  /-- When, as an ISO text. -/
  createdAt : String

/-- A stored breaker event. -/
structure BreakerRow where
  /-- Its unique id, if it has one. -/
  id : Option String
  /-- The breaker. -/
  breaker : String
  /-- `transition` or `reset`. -/
  eventType : String
  /-- The state before. -/
  prevState : String
  /-- The state after. -/
  newState : String
  /-- Why. -/
  reason : String
  /-- The breaker's counters, as JSON text. -/
  statsJson : String
  /-- When, as an ISO text. -/
  createdAt : String

/-- A stored call outcome. -/
structure UsageRow where
  /-- Its id. -/
  id : Nat
  /-- The provider called. -/
  provider : String
  /-- Whether the call succeeded. -/
  success : Bool
  /-- How long it took, in a column of doubles. -/
  latencyMs : Cell
  /-- Tokens used, in a column of numbers. -/
  tokens : Cell
  /-- What it cost, in a column of doubles. -/
  cost : Cell
  /-- When, as an ISO text. -/
  createdAt : String

/-- A stored runbook passage. -/
structure ChunkRow where
  /-- Its id. -/
  id : Nat
  /-- The runbook it comes from. -/
  source : String
  /-- The passage. -/
  content : String
  /-- When, as an ISO text. -/
  createdAt : String

/-- The tables, each in the order its rows were written. -/
structure Tables where
  /-- Routing decisions. -/
  decisions : List DecisionRow := []
  /-- Breaker events. -/
  breakerEvents : List BreakerRow := []
  /-- Call outcomes. -/
  usage : List UsageRow := []
  /-- The last usage id given. -/
  lastUsageId : Nat := 0
  /-- Runbook passages. -/
  chunks : List ChunkRow := []
  /-- The last passage id given. -/
  lastChunkId : Nat := 0

/-- The default number of decisions kept. -/
def defaultMaxDecisions : Float := 500

/-- A row count from a requested number: its floor, between `low` and `high`
(not-a-number stays as it is, and is refused). -/
def bounded (requested : Float) (low high : Float) : Except Fault Int :=
  (Cell.ofNumber (Decimal.maxOf low (Decimal.minOf high (Decimal.floorOf requested)))).rowCount

/-- Inserts a row among rows sorted newest first, after those of the same time. -/
def insertNewest {α : Type} (time : α → String) (x : α) : List α → List α
  | [] => [x]
  | y :: ys => if time y < time x then x :: y :: ys else y :: insertNewest time x ys

/-- Rows newest first; rows of the same time keep their order. -/
def newestFirst {α : Type} (time : α → String) (rows : List α) : List α :=
  rows.foldl (fun acc x => insertNewest time x acc) []

/-- One provider's usage added up. -/
structure UsageTotal where
  /-- The provider. -/
  provider : String
  /-- Its calls. -/
  requests : Nat
  /-- Its failed calls. -/
  failures : Nat
  /-- Its tokens. -/
  tokens : Float
  /-- Its cost. -/
  cost : Float

/-- A text as the tables keep it. -/
def stored (s : String) : String := Text.wellFormed s

/-- The number a sum comes to, zero for none. -/
def sumValue (c : Cell) : Float :=
  match c with
  | .int i => Float.ofInt i
  | .real x => x
  | _ => 0

/-- A routing decision as the table keeps it: its texts stored, its score read by a
column of doubles. -/
def DecisionRow.asStored (row : DecisionRow) : DecisionRow :=
  { row with id := row.id.map stored, correlationId := row.correlationId.map stored,
             provider := stored row.provider, strategy := stored row.strategy,
             score := row.score.asReal,
             alternativesJson := stored row.alternativesJson, reason := stored row.reason,
             createdAt := stored row.createdAt }

/-- How many decisions a bound keeps: `max(50, floor(maxRows))`, read as a row count.
Below 50 the floor is below 50 too, so 50 are kept; from 50 on the floor is the whole
part, a row count while it is below `2^63`. Not-a-number, an infinity and a bound of
`2^63` or more are a `datatype mismatch`. -/
def keepCount (maxRows : Float) : Except Fault Int :=
  if maxRows < 50 then .ok 50
  else if Decimal.isFinite maxRows && Decimal.wholePart maxRows < int64Limit then
    .ok (Decimal.wholePart maxRows)
  else .error (.storage "datatype mismatch")

namespace Tables

/-- Writes a routing decision. -/
def saveDecision (t : Tables) (row : DecisionRow) : Except Fault Tables :=
  let row := row.asStored
  if row.id.isSome && t.decisions.any (·.id == row.id) then
    .error (.storage "UNIQUE constraint failed: routing_events.id")
  else .ok { t with decisions := t.decisions ++ [row] }

/-- Keeps only the newest `maxRows` decisions (at least 50). -/
def trimDecisions (t : Tables) (maxRows : Float := defaultMaxDecisions) : Except Fault Tables := do
  let keep ← keepCount maxRows
  let ordered := newestFirst (·.createdAt) t.decisions
  let excess := (ordered.drop keep.toNat).filterMap (·.id)
  pure { t with decisions := t.decisions.filter fun r => !(r.id.any excess.contains) }

/-- The newest decisions, at most `limit` (between 1 and 500; 80 by default). -/
def listDecisions (t : Tables) (limit : Float := 80) : Except Fault (List DecisionRow) := do
  let n ← bounded limit 1 500
  pure (takeCount n (newestFirst (·.createdAt) t.decisions))

/-- Writes a breaker event. -/
def saveBreakerEvent (t : Tables) (row : BreakerRow) : Except Fault Tables :=
  let row :=
    { row with id := row.id.map stored, breaker := stored row.breaker,
               eventType := stored row.eventType, prevState := stored row.prevState,
               newState := stored row.newState, reason := stored row.reason,
               statsJson := stored row.statsJson, createdAt := stored row.createdAt }
  if row.id.isSome && t.breakerEvents.any (·.id == row.id) then
    .error (.storage "UNIQUE constraint failed: circuit_breaker_events.id")
  else .ok { t with breakerEvents := t.breakerEvents ++ [row] }

/-- The newest events of a breaker, the later written first among the same time, at
most `limit` (between 1 and 500; 50 by default). No breaker matches a missing name. -/
def listBreakerEvents (t : Tables) (breaker : Option String) (limit : Float := 50) :
    Except Fault (List BreakerRow) := do
  let n ← bounded limit 1 500
  let rows := (t.breakerEvents.filter fun r => breaker.any (r.breaker == stored ·)).reverse
  pure (takeCount n (newestFirst (·.createdAt) rows))

/-- The refusal of nothing in a column that must hold something. -/
def notNull (column : String) : Fault := .storage ("NOT NULL constraint failed: " ++ column)

/-- Writes a call outcome; tokens are floored and not below zero. Every column must
be given, and they are checked in order: provider, latency, tokens, cost, time. -/
def saveUsage (t : Tables) (provider : Cell) (success : Bool) (latencyMs : Cell) (tokens : Float)
    (cost : Cell) (createdAt : Cell) : Except Fault Tables := do
  let tokens := Cell.ofNumber (Decimal.maxOf 0 (Decimal.floorOf tokens))
  let provider ← provider.requiredText "routing_usage.provider"
  if latencyMs.isNull then throw (notNull "routing_usage.latency_ms")
  if tokens.isNull then throw (notNull "routing_usage.tokens")
  if cost.isNull then throw (notNull "routing_usage.cost")
  let createdAt ← createdAt.requiredText "routing_usage.created_at"
  let id := t.lastUsageId + 1
  let row : UsageRow :=
    ⟨id, stored provider, success, latencyMs.asReal, tokens.numeric, cost.asReal, stored createdAt⟩
  pure { t with usage := t.usage ++ [row], lastUsageId := id }

/-- Inserts a text into a sorted list of distinct texts. -/
def insertText (x : String) : List String → List String
  | [] => [x]
  | y :: ys => if x == y then y :: ys else if x < y then x :: y :: ys else y :: insertText x ys

/-- Usage per provider since an instant, providers in text order; each provider's
rows are taken in order of creation time. A missing instant selects no rows. -/
def usageSince (t : Tables) (since : Option String) : Except Fault (List UsageTotal) :=
  let rows := t.usage.filter fun r => since.any fun s => !(r.createdAt < stored s)
  let providers := rows.foldl (fun acc r => insertText r.provider acc) []
  providers.mapM fun p => do
    let mine := (newestFirst (·.createdAt) (rows.filter (·.provider == p)).reverse).reverse
    let tokens ← Summation.ofCells (mine.map (·.tokens))
    let cost ← Summation.ofCells (mine.map (·.cost))
    pure ⟨p, mine.length, (mine.filter (!·.success)).length, sumValue tokens, sumValue cost⟩

/-- Writes a runbook passage and returns its id. -/
def insertChunk (t : Tables) (source content createdAt : String) : Nat × Tables :=
  let id := t.lastChunkId + 1
  let row : ChunkRow := ⟨id, stored source, stored content, stored createdAt⟩
  (id, { t with chunks := t.chunks ++ [row], lastChunkId := id })

/-- The newest passages by id, at most `limit` (at least 1; 400 by default). -/
def recentChunks (t : Tables) (limit : Float := 400) : Except Fault (List ChunkRow) := do
  let n ← (Cell.ofNumber (Decimal.maxOf 1 (Decimal.floorOf limit))).rowCount
  pure (takeCount n t.chunks.reverse)

/-- The key an id selects a passage by: the integer it reads as, if any. -/
def chunkKey (c : Cell) : Option Nat :=
  match c.numeric with
  | .int i => if 0 < i then some i.toNat else none
  | _ => none

/-- The passages with the given ids, in id order, each once. -/
def chunksByIds (t : Tables) (ids : List Cell) : List ChunkRow :=
  let keys := ids.filterMap chunkKey
  t.chunks.filter fun c => keys.contains c.id

end Tables

end LaneGate.Store
