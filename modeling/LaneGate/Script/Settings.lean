import LaneGate.Script.Decode
import LaneGate.Script.Encode
import LaneGate.Config.Sources
import LaneGate.Json.Reader
import LaneGate.Wire.Routing
/-!
# Settings scripts

The shapes in which settings are shown — the file settings, the pipeline settings,
the schema and its issues — and the script that reads settings from a scripted
environment and settings file.
-/

namespace LaneGate.Script

open Config

/-- The file settings. -/
def settingsJson (s : Settings) : Json :=
  .obj [
    ("runtime", .obj [("apiSecret", Json.ofString s.runtime.apiSecret),
      ("apiPort", .num s.runtime.apiPort), ("dbPath", Json.ofString s.runtime.dbPath)]),
    ("orchestrator", .obj [("timeoutMs", .num s.orchestrator.timeoutMs),
      ("maxRetries", .num s.orchestrator.maxRetries),
      ("backoffBaseMs", .num s.orchestrator.backoffBaseMs),
      ("backoffMaxMs", .num s.orchestrator.backoffMaxMs),
      ("requestDeadlineMs", Json.ofOption .num s.orchestrator.requestDeadlineMs),
      ("topK", .num s.orchestrator.topK), ("minAnswerChars", .num s.orchestrator.minAnswerChars)]),
    ("breakers", .obj [("failureThreshold", .num s.breakers.failureThreshold),
      ("successThreshold", .num s.breakers.successThreshold),
      ("recoveryTimeoutMs", .num s.breakers.recoveryTimeoutMs)]),
    ("lanes", .obj [("enableCloudLane", .bool s.lanes.enableCloudLane),
      ("onDeviceMode", Json.ofString s.lanes.onDeviceMode.name)]),
    ("providers", .obj [("ollamaBaseUrl", Json.ofString s.providers.ollamaBaseUrl),
      ("ollamaModel", Json.ofString s.providers.ollamaModel),
      ("cloudApiBaseUrl", Json.ofString s.providers.cloudApiBaseUrl),
      ("cloudApiKey", Json.ofString s.providers.cloudApiKey),
      ("cloudModel", Json.ofString s.providers.cloudModel)]),
    ("routing", .obj [("defaultStrategy", Json.ofString s.routing.defaultStrategy)]),
    ("budget", .obj [("dailyLimitUsd", .num s.budget.dailyLimitUsd),
      ("monthlyLimitUsd", .num s.budget.monthlyLimitUsd),
      ("alertThreshold", .num s.budget.alertThreshold)])]

/-- The pipeline settings. -/
def pipelineJson (c : PipelineConfig) : Json :=
  .obj [("timeoutMs", c.timeoutMs.toJson), ("maxRetries", c.maxRetries.toJson),
    ("backoffBaseMs", c.backoffBaseMs.toJson), ("backoffMaxMs", c.backoffMaxMs.toJson),
    ("requestDeadlineMs", c.requestDeadlineMs.toJson),
    ("failureThreshold", c.failureThreshold.toJson), ("successThreshold", c.successThreshold.toJson),
    ("recoveryTimeoutMs", c.recoveryTimeoutMs.toJson), ("topK", c.topK.toJson),
    ("minAnswerChars", c.minAnswerChars.toJson)]

/-- The breaker settings of the lanes. -/
def laneBreakerJson (c : PipelineConfig) : Json :=
  .obj [("failureThreshold", c.failureThreshold.toJson), ("successThreshold", c.successThreshold.toJson),
    ("recoveryTimeoutMs", c.recoveryTimeoutMs.toJson)]

/-- A setting of the schema; `condition` only for conditional settings. -/
def specJson (s : Spec) : Json :=
  .obj ([("key", Json.ofString s.key), ("type", Json.ofString s.kind.name),
    ("class", Json.ofString s.need.name)] ++
    (match s.feature with
      | some f => [("condition", Json.ofString f.name)]
      | none => []) ++
    [("scope", Json.ofString s.scope.name), ("description", Json.ofString s.description),
      ("remediation", Json.ofString s.remediation)])

/-- A settings issue. -/
def issueJson (i : Issue) : Json :=
  .obj [("key", Json.ofString i.key), ("class", Json.ofString i.kind.name),
    ("condition", Json.ofOption (fun f => Json.ofString f.name) i.feature),
    ("remediation", Json.ofString i.remediation)]

/-- A provider description with the fields it sets. -/
def providerInputJson (i : ProviderInput) : Json :=
  let given (g : Given) : Json := match g with
    | .num x => .num x
    | .other t => Json.ofString t
  let opt {α : Type} (key : String) (f : α → Json) : Option α → List (String × Json)
    | some v => [(key, f v)]
    | none => []
  .obj ([("name", i.name), ("kind", i.kind)] ++ opt "model" id i.model ++
    opt "priority" given i.priority ++ opt "weight" given i.weight ++
    opt "costPer1kTokens" given i.costPer1kTokens ++ opt "avgLatencyMs" given i.avgLatencyMs ++
    opt "maxTokens" id i.maxTokens ++ opt "capabilities" id i.capabilities ++
    opt "enabled" id i.enabled ++ opt "rateLimitRpm" given i.rateLimitRpm ++
    opt "currentRpm" id i.currentRpm ++ opt "circuitBreakerName" id i.circuitBreakerName ++
    opt "successRate" id i.successRate ++ opt "lastUsedAt" id i.lastUsedAt)

/-- The environment of a script: its `env` map, with `NODE_ENV` and the database
path fixed. -/
def envOf (req : Json) : List (String × String) :=
  let given : List (String × String) := match req.get? "env" with
    | some (.obj ms) => ms.map fun (p : String × Json) => (p.1, Json.shown p.2)
    | _ => []
  [("NODE_ENV", "test"), ("SWITCHYARD_DB_PATH", ":memory:")] ++
    given.filter fun (p : String × String) => p.1 != "NODE_ENV" && p.1 != "SWITCHYARD_DB_PATH"

/-- The settings file of a script: an object, or a text that is read as JSON (one
that does not read gives the defaults); none without `json`. -/
def fileOf (req : Json) : Settings :=
  match field? req "json" with
  | some (.str t) =>
    match Json.parse t.toString with
    | some j => Settings.merge j
    | none => {}
  | some j => Settings.merge j
  | none => {}

/-- The sources of a script. -/
def sourcesOf (req : Json) : Sources := ⟨envOf req, fileOf req⟩

/-- Sorts texts by their code units. -/
def sortTexts (xs : List String) : List String :=
  let insert (x : String) : List String → List String :=
    fun ys => (ys.filter (fun y => decide (y < x) || y == x)) ++ [x] ++ ys.filter (fun y => decide (x < y))
  xs.foldl (fun acc x => insert x acc) []

/-- Reads settings from a scripted environment and file. -/
def readSettings (req : Json) : Json :=
  let s := sourcesOf req
  let pairs (key : String) : List (String × Json) :=
    (items req key).filterMap fun p => match p with
      | .arr (k :: d :: _) => some (Json.shown k, d)
      | _ => none
  let pipeline := s.pipeline
  let limits := s.limits
  .obj [
    ("values", .obj ((texts req "keys").map fun k => (k, Json.ofOption Json.ofString (s.value? k)))),
    ("numbers", .arr ((pairs "numbers").map fun (k, d) =>
      .num (s.number k (match d with | .num x => x | _ => Decimal.notANumber)))),
    ("booleans", .arr ((pairs "booleans").map fun (k, d) =>
      .bool (s.flag k (match d with | .bool b => b | _ => false)))),
    ("orchestrator", pipelineJson pipeline),
    ("laneBreaker", laneBreakerJson pipeline),
    ("budget", Wire.limitsJson limits),
    ("onDeviceMode", Json.ofString s.onDeviceMode.name),
    ("conditions", Json.ofStrings (sortTexts (s.activeFeatures.map (·.name)))),
    ("issues", .arr (s.issues.map issueJson)),
    ("defaultProviders", .arr (s.defaultProviders.map providerInputJson))]

end LaneGate.Script
