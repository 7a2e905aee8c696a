import LaneGate.Json.Value
import LaneGate.Json.Primitive
import LaneGate.Decimal.Format
/-!
# File settings

The settings file is one JSON object of seven sections: the server, the question
pipeline, the lane breakers, the lanes, the model backends, routing and the budget.
Every setting has a default. A setting from the file is used only when it has the
right type: a text, a finite number, or a boolean; the deadline is a finite number
or nothing, and the on-device mode is `ollama` or `stub`. A section that is not an
object, and a file that is not an object, count as empty.

Each setting also has a flat key, the name it has in the environment; the value of
a key in the file is the setting written as text.
-/

namespace LaneGate.Config

/-- How the on-device lane produces answers. -/
inductive OnDeviceMode where
  /-- By calling a local model server. -/
  | ollama
  /-- With a fixed placeholder answer. -/
  | stub
  deriving DecidableEq, Repr

/-- The name of a mode. -/
def OnDeviceMode.name : OnDeviceMode → String
  | .ollama => "ollama"
  | .stub => "stub"

/-- Server settings. -/
structure ServerSettings where
  /-- The secret that signs control requests. -/
  apiSecret : String := ""
  /-- The listening port. -/
  apiPort : Float := 3100
  /-- The database location. -/
  dbPath : String := "memory/switchyard.db"

/-- Question pipeline settings. -/
structure AskSettings where
  /-- Time allowed for one model call, in ms. -/
  timeoutMs : Float := 12000
  /-- Retries after a failed call. -/
  maxRetries : Float := 1
  /-- First backoff delay, in ms. -/
  backoffBaseMs : Float := 250
  /-- Largest backoff delay, in ms. -/
  backoffMaxMs : Float := 4000
  /-- Time allowed for a whole question, in ms, if limited. -/
  requestDeadlineMs : Option Float := none
  /-- Passages retrieved per question. -/
  topK : Float := 5
  /-- Shortest answer taken as confident. -/
  minAnswerChars : Float := 60

/-- Lane breaker settings. -/
structure BreakerSettings where
  /-- Failures in a row that open a breaker. -/
  failureThreshold : Float := 3
  /-- Successes in a row that close it again. -/
  successThreshold : Float := 2
  /-- Time an open breaker waits, in ms. -/
  recoveryTimeoutMs : Float := 60000

/-- Lane settings. -/
structure LaneSettings where
  /-- Whether questions may go to the cloud lane. -/
  enableCloudLane : Bool := false
  /-- How the on-device lane answers. -/
  onDeviceMode : OnDeviceMode := .ollama

/-- Model backend settings. -/
structure BackendSettings where
  /-- The local model server. -/
  ollamaBaseUrl : String := "http://localhost:11434"
  /-- The local model. -/
  ollamaModel : String := "llama3.1:8b"
  /-- The cloud endpoint. -/
  cloudApiBaseUrl : String := "https://api.openai.com/v1"
  /-- The cloud key. -/
  cloudApiKey : String := ""
  /-- The cloud model. -/
  cloudModel : String := "gpt-4o-mini"

/-- Routing settings. -/
structure RoutingSettings where
  /-- The strategy used when a request names none, as written. -/
  defaultStrategy : String := "balanced"

/-- Budget settings. -/
structure BudgetSettings where
  /-- Spending allowed per day, in USD. -/
  dailyLimitUsd : Float := 10
  /-- Spending allowed per month, in USD. -/
  monthlyLimitUsd : Float := 100
  /-- Share of a limit that raises an alert. -/
  alertThreshold : Float := 0.8

/-- All settings of the file. -/
structure Settings where
  /-- Server settings. -/
  runtime : ServerSettings := {}
  /-- Question pipeline settings. -/
  orchestrator : AskSettings := {}
  /-- Lane breaker settings. -/
  breakers : BreakerSettings := {}
  /-- Lane settings. -/
  lanes : LaneSettings := {}
  /-- Model backend settings. -/
  providers : BackendSettings := {}
  /-- Routing settings. -/
  routing : RoutingSettings := {}
  /-- Budget settings. -/
  budget : BudgetSettings := {}

/-- A section of an object, or an empty object. -/
def part (j : Json) (key : String) : Json :=
  match j.get? key with
  | some (.obj ms) => .obj ms
  | _ => .obj []

/-- A text member, or the fallback. -/
def textOr (j : Json) (key fallback : String) : String :=
  match j.get? key with
  | some (.str s) => s.toString
  | _ => fallback

/-- A finite number member, or the fallback. -/
def numberOr (j : Json) (key : String) (fallback : Float) : Float :=
  match j.get? key with
  | some (.num x) => if Decimal.isFinite x then x else fallback
  | _ => fallback

/-- A boolean member, or the fallback. -/
def flagOr (j : Json) (key : String) (fallback : Bool) : Bool :=
  match j.get? key with
  | some (.bool b) => b
  | _ => fallback

/-- The settings of a loaded file, defaults filling in what is missing or mistyped. -/
def Settings.merge (loaded : Json) : Settings :=
  let root := if loaded.isObject then loaded else .obj []
  let d : Settings := {}
  let rt := part root "runtime"
  let o := part root "orchestrator"
  let b := part root "breakers"
  let l := part root "lanes"
  let p := part root "providers"
  let r := part root "routing"
  let bu := part root "budget"
  { runtime :=
      { apiSecret := textOr rt "apiSecret" d.runtime.apiSecret
        apiPort := numberOr rt "apiPort" d.runtime.apiPort
        dbPath := textOr rt "dbPath" d.runtime.dbPath }
    orchestrator :=
      { timeoutMs := numberOr o "timeoutMs" d.orchestrator.timeoutMs
        maxRetries := numberOr o "maxRetries" d.orchestrator.maxRetries
        backoffBaseMs := numberOr o "backoffBaseMs" d.orchestrator.backoffBaseMs
        backoffMaxMs := numberOr o "backoffMaxMs" d.orchestrator.backoffMaxMs
        requestDeadlineMs :=
          match o.get? "requestDeadlineMs" with
          | some (.num x) => if Decimal.isFinite x then some x else d.orchestrator.requestDeadlineMs
          | _ => d.orchestrator.requestDeadlineMs
        topK := numberOr o "topK" d.orchestrator.topK
        minAnswerChars := numberOr o "minAnswerChars" d.orchestrator.minAnswerChars }
    breakers :=
      { failureThreshold := numberOr b "failureThreshold" d.breakers.failureThreshold
        successThreshold := numberOr b "successThreshold" d.breakers.successThreshold
        recoveryTimeoutMs := numberOr b "recoveryTimeoutMs" d.breakers.recoveryTimeoutMs }
    lanes :=
      { enableCloudLane := flagOr l "enableCloudLane" d.lanes.enableCloudLane
        onDeviceMode :=
          match l.get? "onDeviceMode" with
          | some (.str s) =>
            if s.toString == "ollama" then .ollama
            else if s.toString == "stub" then .stub
            else d.lanes.onDeviceMode
          | _ => d.lanes.onDeviceMode }
    providers :=
      { ollamaBaseUrl := textOr p "ollamaBaseUrl" d.providers.ollamaBaseUrl
        ollamaModel := textOr p "ollamaModel" d.providers.ollamaModel
        cloudApiBaseUrl := textOr p "cloudApiBaseUrl" d.providers.cloudApiBaseUrl
        cloudApiKey := textOr p "cloudApiKey" d.providers.cloudApiKey
        cloudModel := textOr p "cloudModel" d.providers.cloudModel }
    routing := { defaultStrategy := textOr r "defaultStrategy" d.routing.defaultStrategy }
    budget :=
      { dailyLimitUsd := numberOr bu "dailyLimitUsd" d.budget.dailyLimitUsd
        monthlyLimitUsd := numberOr bu "monthlyLimitUsd" d.budget.monthlyLimitUsd
        alertThreshold := numberOr bu "alertThreshold" d.budget.alertThreshold } }

/-- The file's value of a flat key, written as text; `none` for a key the file has no
setting for and for an unset deadline. -/
def Settings.textOf (s : Settings) (key : String) : Option String :=
  let n := fun x => some (Decimal.numberText x)
  match key with
  | "API_SECRET" => some s.runtime.apiSecret
  | "API_PORT" => n s.runtime.apiPort
  | "SWITCHYARD_DB_PATH" => some s.runtime.dbPath
  | "ASK_TIMEOUT_MS" => n s.orchestrator.timeoutMs
  | "ASK_MAX_RETRIES" => n s.orchestrator.maxRetries
  | "ASK_BACKOFF_BASE_MS" => n s.orchestrator.backoffBaseMs
  | "ASK_BACKOFF_MAX_MS" => n s.orchestrator.backoffMaxMs
  | "ASK_REQUEST_DEADLINE_MS" => s.orchestrator.requestDeadlineMs.map Decimal.numberText
  | "RAG_TOP_K" => n s.orchestrator.topK
  | "MIN_ANSWER_CHARS" => n s.orchestrator.minAnswerChars
  | "BREAKER_FAILURE_THRESHOLD" => n s.breakers.failureThreshold
  | "BREAKER_SUCCESS_THRESHOLD" => n s.breakers.successThreshold
  | "BREAKER_RECOVERY_TIMEOUT_MS" => n s.breakers.recoveryTimeoutMs
  | "ENABLE_CLOUD_LANE" => some (if s.lanes.enableCloudLane then "true" else "false")
  | "ON_DEVICE_MODE" => some s.lanes.onDeviceMode.name
  | "OLLAMA_BASE_URL" => some s.providers.ollamaBaseUrl
  | "OLLAMA_MODEL" => some s.providers.ollamaModel
  | "CLOUD_API_BASE_URL" => some s.providers.cloudApiBaseUrl
  | "CLOUD_API_KEY" => some s.providers.cloudApiKey
  | "CLOUD_MODEL" => some s.providers.cloudModel
  | "ROUTING_STRATEGY" => some s.routing.defaultStrategy
  | "DAILY_COST_LIMIT_USD" => n s.budget.dailyLimitUsd
  | "MONTHLY_COST_LIMIT_USD" => n s.budget.monthlyLimitUsd
  | "COST_ALERT_THRESHOLD" => n s.budget.alertThreshold
  | _ => none

end LaneGate.Config

namespace LaneGate

/-- The settings of the question pipeline in effect, each a value as given: the
service reads a setting where it uses it, as a number, or as given for the lane
breakers, which check their settings themselves (`null` there means their own
default). -/
structure PipelineConfig where
  /-- Time allowed for one model call, in ms. -/
  timeoutMs : Primitive := .num 12000
  /-- Retries after a failed call. -/
  maxRetries : Primitive := .num 1
  /-- First backoff delay, in ms. -/
  backoffBaseMs : Primitive := .num 250
  /-- Largest backoff delay, in ms. -/
  backoffMaxMs : Primitive := .num 4000
  /-- Time allowed for a whole question, in ms (`null` when not limited). -/
  requestDeadlineMs : Primitive := .null
  /-- Failures in a row that open a lane breaker. -/
  failureThreshold : Primitive := .num 3
  /-- Successes in a row that close it again. -/
  successThreshold : Primitive := .num 2
  /-- Time an open lane breaker waits, in ms. -/
  recoveryTimeoutMs : Primitive := .num 60000
  /-- Passages retrieved per question. -/
  topK : Primitive := .num 5
  /-- Shortest answer taken as confident. -/
  minAnswerChars : Primitive := .num 60

end LaneGate
