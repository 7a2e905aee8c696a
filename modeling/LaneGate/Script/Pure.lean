import LaneGate.Script.Settings
import LaneGate.Routing.Cost
import LaneGate.Routing.Strategy
import LaneGate.Answer.Confidence
import LaneGate.Answer.Prompt
import LaneGate.Grounding.Relevance
import LaneGate.Call.Backoff
import LaneGate.Redact
import LaneGate.Wire.Answer
/-!
# Single calls

Scripts that make one call of a pure part of the service and show its result:
token estimates, provider descriptions, strategies, breaker settings, faults, the
confidence gate, prompts and previews, relevance, the lane policy, backoff,
redaction and settings.
-/

namespace LaneGate.Script

open Wire

/-- A member as it is handed over: `undefined` when it is missing. -/
def memberOrUndefined (j : Json) (key : String) : Json :=
  (j.get? key).getD (Json.ofString "undefined")

/-- A citation from its JSON object; the preview is shown as a text. -/
def citationOf (j : Json) : Prompt.Citation :=
  ⟨memberOrUndefined j "chunkId", memberOrUndefined j "source",
    match j.get? "preview" with
    | some (.str t) => t
    | some v => Text.ofString (Json.shown v)
    | none => Text.ofString "undefined"⟩

/-- A grounded prompt as JSON. -/
def groundedJson (g : Prompt.Grounded) : Json :=
  .obj [("prompt", .str g.prompt), ("citations", .arr (g.citations.map citationJson)),
    ("charEstimate", Json.ofNat g.charEstimate)]

/-- A snippet from its JSON object; its content must be a text. -/
def snippetOf (j : Json) : Except Fault Prompt.Snippet :=
  match j, j.get? "content" with
  | .obj _, some (.str c) => .ok ⟨memberOrUndefined j "id", memberOrUndefined j "source", c.toString⟩
  | _, _ => .error .wrongType

/-- A text member that must be there. -/
def requiredText (j : Json) (key : String) : Except Fault String :=
  match j.get? key with
  | some (.str t) => .ok t.toString
  | _ => .error .wrongType

/-- The grounded prompt a `context_build` script asks for. -/
def contextOf (req : Json) : Except Fault Json := do
  let question ← requiredText req "question"
  let chunks ← match req.get? "chunks" with
    | some (.arr xs) => xs.mapM snippetOf
    | _ => .error .wrongType
  pure (groundedJson (Prompt.build (numberD req "maxChars" Prompt.defaultMaxChars) question chunks))

/-- The breaker settings a `breaker_config` script asks for. -/
def breakerSettings (req : Json) : Except Fault Breaker.Config :=
  match field? req "preset" with
  | some (.str p) =>
    if p.toString == "llm" then Breaker.Config.forModel (req.get? "name")
    else if p.toString == "api" then Breaker.Config.forService (req.get? "name")
    else breakerConfigOf (req.get? "name") (req.getD "input")
  | _ => breakerConfigOf (req.get? "name") (req.getD "input")

/-- Breaker settings as JSON. -/
def breakerSettingsJson (c : Breaker.Config) : Json :=
  .obj ((c.name.map ("name", ·)).toList ++ [("failureThreshold", .num c.failureThreshold.toFloat),
    ("successThreshold", .num c.successThreshold.toFloat), ("recoveryTimeoutMs", .num c.recoveryTimeoutMs),
    ("frozen", .bool true)])

/-- The markers of a `confidence` script: the default ones when none are given, and
a list of texts otherwise (anything else cannot be lowered). -/
def markersOf (req : Json) : Except Fault (List String) :=
  match req.get? "markers" with
  | none => .ok Confidence.defaultMarkers
  | some (.arr xs) => xs.mapM fun
    | .str m => .ok m.toString
    | _ => .error .wrongType
  | some _ => .error .wrongType

/-- Whether a script's citations count as none: a list or a text of length zero, or
an object whose `length` is zero; other values have no length to count. Missing or
`null` citations are an empty list. -/
def uncited (req : Json) : Except Fault Bool :=
  match req.get? "citations" with
  | some (.arr xs) => .ok xs.isEmpty
  | some (.str t) => .ok t.units.isEmpty
  | some (.obj ms) =>
    .ok (match (Json.obj ms).get? "length" with
      | some (.num x) => x == 0
      | _ => false)
  | some .null | none => .ok true
  | some _ => .ok false

/-- The confidence verdict a `confidence` script asks for. -/
def confidenceOf (req : Json) : Except Fault Json := do
  let markers ← markersOf req
  let policy := Confidence.Policy.make (numberD req "minAnswerChars" Confidence.defaultMinAnswerChars)
    markers
  let answer ← match req.get? "answer" with
    | some (.str a) => .ok a.toString
    | _ => .error .wrongType
  let lane := match req.get? "lane" with
    | some (.str l) => Lane.ofName? l.toString
    | _ => none
  let reason ← match policy.textReason answer with
    | some r => .ok (some r)
    | none =>
      if lane == some .onDeviceRag then
        (uncited req).map fun empty => if empty then some .noCitations else none
      else .ok none
  pure (.obj [("lowConfidence", .bool reason.isSome),
    ("reason", Json.ofOption (fun r => Json.ofString r.name) reason)])

/-- A text argument: only a text will do. -/
def textArg (v : Option Json) : Except Fault String :=
  match v with
  | some (.str t) => .ok t.toString
  | _ => .error .wrongType

/-- Whether a value has length zero (a list, a text, or an object whose `length` is
zero). -/
def hasNoLength : Json → Bool
  | .arr xs => xs.isEmpty
  | .str t => t.units.isEmpty
  | .obj ms =>
    match (Json.obj ms).get? "length" with
    | some (.num x) => x == 0
    | _ => false
  | _ => false

/-- The relevance scores a `score_chunks` script asks for. The query tokens are given
as they are, or read from a query text. No query means no scores, before the chunks
are looked at; a chunk whose content is not a text, or tokens that cannot be gone
through, are values of the wrong type. Tokens that are not texts match nothing,
and a text of tokens goes through single characters, which match nothing either. -/
def scoresOf (req : Json) : Except Fault Json := do
  let query ← match field? req "queryTokens" with
    | some q => pure q
    | none => (textArg (req.get? "query")).map fun q => Json.ofStrings (Relevance.keywords q)
  if hasNoLength query then return .arr []
  let chunks ← match req.get? "chunks" with
    | some (.arr cs) => cs.mapM fun c => (textArg (c.get? "content")).map fun t => (c.get? "id", t)
    | _ => throw .wrongType
  if chunks.isEmpty then return .arr []
  let tokens ← match query with
    | .arr xs => pure (xs.filterMap fun | .str t => some t.toString | _ => none)
    | .str _ => pure []
    | _ => throw .wrongType
  pure (.arr ((Relevance.rank tokens chunks).map fun (id, s) =>
    .obj ((id.map ("id", ·)).toList ++ [("score", .num s)])))

/-- The lane decision a `lane_policy` script asks for. The options are taken as
given: the enable flag counts by truthiness and is echoed as it came, and a provider
that is not set stays unset. A hint that is given must be text. -/
def lanePolicyOf (req : Json) : Except Fault Json := do
  let o := req.getD "options"
  let hint ← match field? req "hint" with
    | none => pure none
    | some (.str t) => pure (some t.toString)
    | some _ => throw .wrongType
  let p : LanePolicy (Option Json) :=
    ⟨(o.get? "enableCloudLane").any Json.truthy, o.get? "onDeviceProvider", o.get? "cloudProvider"⟩
  let d := p.decide hint
  let shown (key : String) (v : Option Json) : List (String × Json) := (v.map (key, ·)).toList
  pure (.obj ([("decision", .obj ([("lane", Json.ofString d.lane.name)] ++ shown "provider" d.provider ++
      [("reason", Json.ofString d.reason)]))] ++
    shown "cloudLaneEnabled" (o.get? "enableCloudLane") ++ shown "onDeviceProvider" p.onDeviceProvider ++
    shown "cloudProvider" p.cloudProvider))

/-- Whether a value names a strategy exactly. -/
def isStrategy (v : Json) : Bool :=
  match v with
  | .str s => (Strategy.ofName? s.toString).isSome
  | _ => false

/-- Runs a single-call script, if `op` names one. -/
def runPure (op : String) (req : Json) : Option (Except Fault Json) :=
  match op with
  | "estimate_tokens" =>
    some (match req.get? "text" with
      | some (.str t) => .ok (Json.ofNat (estimateTokens t.toString))
      | some v => if v.truthy then .error .wrongType else .ok (Json.ofNat 0)
      | none => .ok (Json.ofNat 0))
  | "provider_config" => some ((Provider.make (providerInputOf (req.getD "input"))).map providerJson)
  | "parse_strategy" =>
    some (do let raw ← textArg (req.get? "raw"); (Strategy.parse raw).map fun s => Json.ofString s.name)
  | "is_strategy" => some (.ok (.bool (isStrategy (req.getD "value"))))
  | "breaker_config" => some ((breakerSettings req).map breakerSettingsJson)
  | "counts_as_failure" =>
    some (.ok (.bool (Breaker.FailurePolicy.standard.counts (faultOfSpec (req.getD "err")))))
  | "error_make" => some (.ok (faultJson (faultOfSpec (req.getD "err"))))
  | "error_message" => some (.ok (.str (faultOfSpec (req.getD "err")).message))
  | "confidence" => some (confidenceOf req)
  | "preview" =>
    some ((requiredText req "text").map fun t =>
      .str (Prompt.preview t (numberD req "limit" Prompt.defaultPreviewLimit)))
  | "context_build" => some (contextOf req)
  | "tokenize" => some ((textArg (req.get? "text")).map fun t => Json.ofStrings (Relevance.keywords t))
  | "score_chunks" => some (scoresOf req)
  | "lane_policy" => some (lanePolicyOf req)
  | "cloud_prompt" => some ((textArg (req.get? "question")).map fun q => Json.ofString (Prompt.cloud q))
  | "backoff" =>
    let arg (key : String) := (Primitive.ofOption (req.get? key)).toNumber
    some (.ok (.num (backoffMs (arg "retryIndex") (arg "baseDelayMs") (arg "maxDelayMs"))))
  | "fallback_render" =>
    some (match req.get? "citations" with
      | some (.arr cs) =>
        if cs.any (· matches .null) then .error .wrongType
        else .ok (.str (Prompt.fallbackAnswer (cs.map citationOf)))
      | _ => .error .wrongType)
  | "default_orchestrator_config" => some (.ok (pipelineJson {}))
  | "scrub" => some (.ok (.str (Redact.scrub (secretsOf req) ((req.getD "text").text?.getD Text.empty))))
  | "env_schema" => some (.ok (.arr (Config.schema.map specJson)))
  | "env_secret_keys" => some (.ok (Json.ofStrings Config.secretKeys))
  | "env_find" => some (.ok (Json.ofOption specJson (Config.findSpec (strD req "key" ""))))
  | "env_validate" =>
    let values := req.getD "values"
    let active := (texts req "conditions").filterMap Config.Feature.ofName?
    some (.ok (.arr ((Config.validate (fun k => values.has k) active).map issueJson)))
  | "config_merge" => some (.ok (settingsJson (Config.Settings.merge (req.getD "loaded"))))
  | "config_read" => some (.ok (readSettings req))
  | _ => none

end LaneGate.Script
