import LaneGate.Config.Schema
import LaneGate.Config.Settings
import LaneGate.Decimal.Parse
import LaneGate.Text.Case
import LaneGate.Routing.Cost
/-!
# Where a setting comes from

A setting's value is looked up by its flat key: first in the environment, where a
value counts when the key is one of the schema's (or `NODE_ENV`, `LOG_LEVEL`) and the
value is not blank; then in the settings file merged with its defaults, where a
value counts when it is not blank once written as text. A key with neither has no
value.

Numbers and flags are read from these texts: a number that does not read as a
finite one, and a missing value, give the fallback; a flag is on when its text,
trimmed and lowered, is `1`, `true`, `yes` or `on`.
-/

namespace LaneGate.Config

/-- The environment and the settings file. -/
structure Sources where
  /-- Environment variables. -/
  env : List (String × String)
  /-- The settings file, merged with defaults. -/
  file : Settings := {}

/-- Whether the environment may set a key. -/
def overridable (key : String) : Bool :=
  key == "NODE_ENV" || key == "LOG_LEVEL" || (findSpec key).isSome

namespace Sources

/-- The value of a key, if it has one. -/
def value? (s : Sources) (key : String) : Option String :=
  let fromEnv := (s.env.find? (·.1 == key)).map (·.2)
  match fromEnv with
  | some v =>
    if overridable key && !Text.isBlankText v then some v else fromFile
  | none => fromFile
where
  /-- The file's value, unless blank. -/
  fromFile : Option String :=
    match s.file.textOf key with
    | some v => if Text.isBlankText v then none else some v
    | none => none

/-- The value of a key, or the fallback. -/
def valueD (s : Sources) (key fallback : String) : String := (s.value? key).getD fallback

/-- The number of a key, or the fallback when it has none or it is not finite. -/
def number (s : Sources) (key : String) (fallback : Float) : Float :=
  match s.value? key with
  | none => fallback
  | some raw =>
    let x := Decimal.ofText raw
    if Decimal.isFinite x then x else fallback

/-- The flag of a key, or the fallback when it has no value. -/
def flag (s : Sources) (key : String) (fallback : Bool) : Bool :=
  match s.value? key with
  | none => fallback
  | some raw => ["1", "true", "yes", "on"].contains (Text.lower (Text.trim raw))

/-- The question pipeline settings: retries are a whole number, not negative; the
deadline applies only when it is a positive finite number. -/
def pipeline (s : Sources) : PipelineConfig :=
  let d : PipelineConfig := {}
  let deadline := match s.value? "ASK_REQUEST_DEADLINE_MS" with
    | none => Decimal.notANumber
    | some raw => Decimal.ofText raw
  let number (key : String) (dflt : Primitive) : Primitive := .num (s.number key dflt.toNumber)
  { timeoutMs := number "ASK_TIMEOUT_MS" d.timeoutMs
    maxRetries := .num (Decimal.maxOf 0 (Decimal.floorOf (s.number "ASK_MAX_RETRIES" d.maxRetries.toNumber)))
    backoffBaseMs := number "ASK_BACKOFF_BASE_MS" d.backoffBaseMs
    backoffMaxMs := number "ASK_BACKOFF_MAX_MS" d.backoffMaxMs
    requestDeadlineMs := if Decimal.isFinite deadline && deadline > 0 then .num deadline else .null
    failureThreshold := number "BREAKER_FAILURE_THRESHOLD" d.failureThreshold
    successThreshold := number "BREAKER_SUCCESS_THRESHOLD" d.successThreshold
    recoveryTimeoutMs := number "BREAKER_RECOVERY_TIMEOUT_MS" d.recoveryTimeoutMs
    topK := number "RAG_TOP_K" d.topK
    minAnswerChars := number "MIN_ANSWER_CHARS" d.minAnswerChars }

/-- The spending limits. -/
def limits (s : Sources) : Limits :=
  let d : BudgetSettings := {}
  { dailyLimit := .num (s.number "DAILY_COST_LIMIT_USD" d.dailyLimitUsd)
    monthlyLimit := .num (s.number "MONTHLY_COST_LIMIT_USD" d.monthlyLimitUsd)
    alertThreshold := .num (s.number "COST_ALERT_THRESHOLD" d.alertThreshold) }

/-- The on-device mode: `stub` only when the value is exactly that. -/
def onDeviceMode (s : Sources) : OnDeviceMode :=
  if s.value? "ON_DEVICE_MODE" == some "stub" then .stub else .ollama

/-- Whether the cloud lane is enabled. -/
def cloudLaneEnabled (s : Sources) : Bool :=
  s.flag "ENABLE_CLOUD_LANE" ({} : LaneSettings).enableCloudLane

/-- The features that are on: signed control requests always, the cloud lane when
enabled, and the local model server when the on-device lane uses it. -/
def activeFeatures (s : Sources) : List Feature :=
  [Feature.signedApi] ++ (if s.cloudLaneEnabled then [Feature.cloudLane] else []) ++
    (if s.onDeviceMode == .ollama then [Feature.onDeviceOllama] else [])

/-- The settings that should have a value and have none. -/
def issues (s : Sources) : List Issue :=
  validate (fun k => (s.value? k).isSome) s.activeFeatures

/-- The name of the on-device backend in the routing table. -/
def onDeviceProviderName : String := "ollama_local"

/-- The name of the cloud backend in the routing table. -/
def cloudProviderName : String := "cloud_openai"

/-- The routing entries of the two lane backends; the cloud one only when a cloud
key is set. -/
def defaultProviders (s : Sources) : List ProviderInput :=
  let d : BackendSettings := {}
  let onDevice : ProviderInput :=
    { name := Json.ofString onDeviceProviderName, kind := Json.ofString "ollama",
      model := some (Json.ofString (s.valueD "OLLAMA_MODEL" d.ollamaModel)),
      priority := some (.num 1), weight := some (.num 2), costPer1kTokens := some (.num 0),
      avgLatencyMs := some (.num 500), capabilities := some (Json.ofStrings ["chat", "code", "analysis"]),
      circuitBreakerName := some (Json.ofString "on_device_rag") }
  let cloud : ProviderInput :=
    { name := Json.ofString cloudProviderName, kind := Json.ofString "openai_compatible",
      model := some (Json.ofString (s.valueD "CLOUD_MODEL" d.cloudModel)),
      priority := some (.num 5), weight := some (.num 1), costPer1kTokens := some (.num 0.002),
      avgLatencyMs := some (.num 1500),
      capabilities := some (Json.ofStrings ["chat", "code", "analysis", "long_context"]),
      circuitBreakerName := some (Json.ofString "cloud_direct") }
  if (s.value? "CLOUD_API_KEY").isSome then [onDevice, cloud] else [onDevice]

end Sources

end LaneGate.Config
