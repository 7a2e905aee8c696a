import LaneGate.Script.Decode
import LaneGate.Script.Encode
import LaneGate.Grounding.Runbooks
import LaneGate.Json.Writer
import LaneGate.Json.Order
/-!
# Table and runbook scripts

Scripts that write and read the tables directly, and scripts that ingest and
retrieve runbooks. Rows are shown with the tables' column names.
-/

namespace LaneGate.Script

open Wire Store

/-- A stored decision as a row. -/
def decisionRowJson (r : DecisionRow) : Json :=
  .obj [("id", Json.ofOption Json.ofString r.id), ("correlation_id", Json.ofOption Json.ofString r.correlationId),
    ("provider", Json.ofString r.provider), ("strategy", Json.ofString r.strategy),
    ("score", r.score.toJson), ("alternatives_json", Json.ofString r.alternativesJson),
    ("reason", Json.ofString r.reason), ("created_at", Json.ofString r.createdAt)]

/-- A stored breaker event as a row. -/
def breakerRowJson (r : BreakerRow) : Json :=
  .obj [("id", Json.ofOption Json.ofString r.id), ("breaker", Json.ofString r.breaker),
    ("event_type", Json.ofString r.eventType), ("prev_state", Json.ofString r.prevState),
    ("new_state", Json.ofString r.newState), ("reason", Json.ofString r.reason),
    ("stats_json", Json.ofString r.statsJson), ("created_at", Json.ofString r.createdAt)]

/-- A stored passage as a row. -/
def chunkRowJson (c : ChunkRow) : Json :=
  .obj [("id", Json.ofNat c.id), ("source", Json.ofString c.source), ("content", Json.ofString c.content),
    ("created_at", Json.ofString c.createdAt)]

/-- A stored passage as the runbook store shows it (without its time). -/
def chunkJson (c : ChunkRow) : Json :=
  .obj [("id", Json.ofNat c.id), ("source", Json.ofString c.source), ("content", Json.ofString c.content)]


/-- A result, or the fault that stopped it, as a step's outcome. -/
def listed {α : Type} (f : α → Json) (r : Except Fault (List α)) : Except Fault Json :=
  r.map fun rows => .arr (rows.map f)

/-- When passages written by table scripts are created: 2026-01-01T00:00:00.000Z. -/
def fixedChunkTime : String := "2026-01-01T00:00:00.000Z"

/-- The instant 2026-01-01T00:00:00.000Z, in ms. -/
def bulkStart : Int := 1767225600000

/-- A member handed to a statement as given, or a text default when it is missing
or `null`. -/
def argD (step : Json) (key dflt : String) : Json := givenOr step key (Json.ofString dflt)

/-- A decision row from a `save_event` step: its values handed to the insert, then
kept as the columns keep them, the columns that must hold something checked in
order. -/
def decisionRowOf (step : Json) : Except Fault DecisionRow := do
  let alternatives := Json.orderedText ((field? step "alternatives").getD (.arr []))
  let cells ← bindAll 8 [givenOr step "id" .null, givenOr step "correlationId" .null,
    argD step "provider" "p", argD step "strategy" "balanced", givenOr step "score" .null,
    Json.ofString alternatives, argD step "reason" "r", argD step "createdAt" ""]
  match cells with
  | [id, correlationId, provider, strategy, score, alternativesJson, reason, createdAt] =>
    let provider ← provider.requiredText "routing_events.provider"
    let strategy ← strategy.requiredText "routing_events.strategy"
    let alternativesJson ← alternativesJson.requiredText "routing_events.alternatives_json"
    let reason ← reason.requiredText "routing_events.reason"
    let createdAt ← createdAt.requiredText "routing_events.created_at"
    pure { id := id.text?, correlationId := correlationId.text?, provider, strategy, score,
           alternativesJson, reason, createdAt }
  | _ => throw tooFew

/-- A breaker event row from a `save_breaker_event` step, handed over and checked as
a decision row is. -/
def breakerRowOf (step : Json) : Except Fault BreakerRow := do
  let stats := Json.orderedText ((field? step "stats").getD (.obj []))
  let cells ← bindAll 8 [givenOr step "id" .null, givenOr step "breaker" .null, argD step "eventType" "transition",
    argD step "prevState" "closed", argD step "newState" "open", argD step "reason" "r",
    Json.ofString stats, argD step "createdAt" ""]
  match cells with
  | [id, breaker, eventType, prevState, newState, reason, statsJson, createdAt] =>
    let breaker ← breaker.requiredText "circuit_breaker_events.breaker"
    let eventType ← eventType.requiredText "circuit_breaker_events.event_type"
    let prevState ← prevState.requiredText "circuit_breaker_events.prev_state"
    let newState ← newState.requiredText "circuit_breaker_events.new_state"
    let reason ← reason.requiredText "circuit_breaker_events.reason"
    let statsJson ← statsJson.requiredText "circuit_breaker_events.stats_json"
    let createdAt ← createdAt.requiredText "circuit_breaker_events.created_at"
    pure { id := id.text?, breaker, eventType, prevState, newState, reason, statsJson, createdAt }
  | _ => throw tooFew

/-- The one value a statement of one placeholder (besides numbers it is always given)
is filled with from a member: `extra` more placeholders take numbers, which are
handed over after it. -/
def boundFirst (v : Json) (extra : Nat) : Except Fault Cell := do
  let cells ← bindAll (extra + 1) (v :: List.replicate extra (.num 0))
  match cells with
  | c :: _ => pure c
  | [] => throw tooFew

/-- The ids a step names, as handed to a lookup of passages: a list's items, each
filling a placeholder; an empty list, an empty text, or an object of length zero
looks up nothing; anything else cannot be gone through. -/
def boundIds (v : Option Json) : Except Fault (List Cell) :=
  match v with
  | none | some .null => .ok []
  | some (.arr []) => .ok []
  | some (.arr xs) => bindAll xs.length xs
  | some (.str t) => if t.units.isEmpty then .ok [] else .error .wrongType
  | some (.obj ms) =>
    match (Json.obj ms).get? "length" with
    | some (.num x) => if x == 0 then .ok [] else .error .wrongType
    | _ => .error .wrongType
  | some _ => .error .wrongType

/-- Writes a decision and trims the table: the tables after, and the fault that
stopped the write, if any (a trim that fails leaves the decision written). -/
def saveAndTrim (t : Tables) (row : DecisionRow) (maxRows : Float) : Tables × Option Fault :=
  match t.saveDecision row with
  | .error f => (t, some f)
  | .ok t =>
    match t.trimDecisions maxRows with
    | .ok t => (t, none)
    | .error f => (t, some f)

/-- The outcome of a write that yields nothing. -/
def written (r : Tables × Option Fault) : Tables × Except Fault Json :=
  match r.2 with
  | some f => (r.1, .error f)
  | none => (r.1, .ok .null)

/-- One table step and its result. -/
def tableStep (t : Tables) (step : Json) : Tables × Except Fault Json :=
  let maxRows := numberD step "maxRows" defaultMaxDecisions
  match strD step "do" "" with
  | "save_event" =>
    match decisionRowOf step with
    | .ok row => written (saveAndTrim t row maxRows)
    | .error f => (t, .error f)
  | "save_events" =>
    let prefix_ := strD step "prefix" "e"
    let n := repeats step 0
    written ((List.range n).foldl
      (fun (acc : Tables × Option Fault) (i : Nat) =>
        if acc.2.isSome then acc
        else
          saveAndTrim acc.1
            { id := some (prefix_ ++ toString i), correlationId := none, provider := "p" ++ toString (i % 3),
              strategy := "failover", score := .real i.toFloat, alternativesJson := "[]",
              reason := "bulk", createdAt := Clock.iso (bulkStart + 1000 * (i : Int)) }
            maxRows)
      (t, none))
  | "list_events" => (t, listed decisionRowJson (t.listDecisions (numberD step "limit" 80)))
  | "count_events" => (t, .ok (Json.ofNat t.decisions.length))
  | "save_usage" =>
    let tokens := ((field? step "tokens").map numberOf).getD 0
    let saved := do
      let cells ← bindAll 6 [givenOr step "provider" .null, .num 0, givenOr step "latencyMs" (.num 0), .num 0,
        givenOr step "cost" (.num 0), argD step "createdAt" ""]
      match cells with
      | [provider, _, latencyMs, _, cost, createdAt] =>
        t.saveUsage provider (Json.truthy (step.getD "success")) latencyMs tokens cost createdAt
      | _ => throw tooFew
    match saved with
    | .ok t => (t, .ok .null)
    | .error f => (t, .error f)
  | "usage_since" =>
    (t, listed usageTotalJson (boundFirst (givenOr step "since" .null) 0 >>= fun c => t.usageSince c.text?))
  | "save_breaker_event" =>
    match breakerRowOf step >>= t.saveBreakerEvent with
    | .ok t => (t, .ok .null)
    | .error f => (t, .error f)
  | "list_breaker_events" =>
    (t, listed breakerRowJson (boundFirst (givenOr step "breaker" .null) 1 >>= fun c =>
      t.listBreakerEvents c.text? (numberD step "limit" 50)))
  | "insert_chunk" =>
    let passage := do
      let cells ← bindAll 3 [givenOr step "source" .null, givenOr step "content" .null, Json.ofString fixedChunkTime]
      match cells with
      | [source, content, _] =>
        pure (← source.requiredText "runbook_chunks.source", ← content.requiredText "runbook_chunks.content")
      | _ => throw tooFew
    match passage with
    | .ok (source, content) =>
      let (id, t) := t.insertChunk source content fixedChunkTime
      (t, .ok (Json.ofNat id))
    | .error f => (t, .error f)
  | "recent_chunks" => (t, listed chunkRowJson (t.recentChunks (numberD step "limit" 400)))
  | "chunks_by_ids" => (t, (boundIds (step.get? "ids")).map fun ids => .arr ((t.chunksByIds ids).map chunkRowJson))
  | _ => (t, .ok .null)

/-- Runs a table script on empty tables. -/
def runTables (req : Json) : Except Fault Json :=
  let (_, results) := (items req "steps").foldl
    (fun (acc : Tables × List Json) step =>
      let (t, r) := tableStep acc.1 step
      (t, acc.2 ++ [resultJson r]))
    (({} : Tables), [])
  .ok (.arr results)

/-- One runbook step and its result. -/
def runbookStep (scanLimit : Float) (t : Tables) (step : Json) : Tables × Except Fault Json :=
  match strD step "do" "" with
  | "ingest" =>
    match runbookOf step >>= fun (source, chunks) => Runbooks.ingest t source chunks "" with
    | .ok (ids, t) => (t, .ok (.arr (ids.map Json.ofNat)))
    | .error f => (t, .error f)
  | "list" => (t, listed chunkJson (t.recentChunks (numberD step "limit" 400)))
  | "by_ids" =>
    match step.get? "ids" with
    | none | some .null => (t, .ok (.arr []))
    | some (.arr xs) =>
      let asNumber : Json → Option Float
        | .num x => some x
        | _ => none
      match (if xs.isEmpty then .ok [] else bindAll xs.length xs) with
      | .ok bound => (t, .ok (.arr ((Runbooks.byIds t bound (xs.map asNumber)).map chunkJson)))
      | .error f => (t, .error f)
    | some _ => (t, .error .wrongType)
  | "retrieve" =>
    let found := Runbooks.retrieve t scanLimit (strD step "question" "") (numD step "topK" 5)
    (t, listed (fun (c, s) => withMembers (chunkJson c) [("score", .num s)]) found)
  | _ => (t, .ok .null)

/-- Runs a runbook script on an empty store. -/
def runRunbooks (req : Json) : Except Fault Json :=
  let scanLimit := numberD req "scanLimit" Runbooks.defaultScanLimit
  let (_, results) := (items req "steps").foldl
    (fun (acc : Tables × List Json) step =>
      let (t, r) := runbookStep scanLimit acc.1 step
      (t, acc.2 ++ [resultJson r]))
    (({} : Tables), [])
  .ok (.arr results)

end LaneGate.Script
