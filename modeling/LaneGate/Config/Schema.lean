/-!
# The settings schema

Every setting the service reads is listed here with its kind (a secret or a plain
value), whether it must be set (always, never, or when a feature it serves is on),
the part of the service it configures, and a line of help for when it is missing.

Validation goes through the schema in order and reports each setting that has no
value and is either required, or conditional on a feature that is on.
-/

namespace LaneGate.Config

/-- Whether a setting's value must be kept out of logs and answers. -/
inductive SettingKind where
  /-- A secret. -/
  | secret
  /-- A plain value. -/
  | plain
  deriving DecidableEq, Repr

/-- When a setting must be set. -/
inductive Need where
  /-- Always. -/
  | required
  /-- Never. -/
  | optional
  /-- When its feature is on. -/
  | conditional
  deriving DecidableEq, Repr

/-- The part of the service a setting configures. -/
inductive Scope where
  /-- The process itself: the control secret, port, settings file and database. -/
  | runtime
  /-- The question pipeline: timeouts, retries, retrieval, confidence. -/
  | orchestrator
  /-- The lane breakers. -/
  | breaker
  /-- Which lanes are on and how the grounded lane runs. -/
  | lane
  /-- The model backends: addresses, models, keys. -/
  | provider
  /-- The router's default strategy. -/
  | routing
  /-- The spending limits. -/
  | budget
  deriving DecidableEq, Repr

/-- A feature that makes conditional settings necessary. -/
inductive Feature where
  /-- The cloud lane is enabled. -/
  | cloudLane
  /-- The on-device lane calls a local model server. -/
  | onDeviceOllama
  /-- Control requests are signed. -/
  | signedApi
  deriving DecidableEq, Repr

/-- The name of a setting kind. -/
def SettingKind.name : SettingKind → String
  | .secret => "secret"
  | .plain => "env"

/-- The name of a need. -/
def Need.name : Need → String
  | .required => "required"
  | .optional => "optional"
  | .conditional => "conditional"

/-- The name of a scope. -/
def Scope.name : Scope → String
  | .runtime => "runtime"
  | .orchestrator => "orchestrator"
  | .breaker => "breaker"
  | .lane => "lane"
  | .provider => "provider"
  | .routing => "routing"
  | .budget => "budget"

/-- All features. -/
def Feature.all : List Feature := [.cloudLane, .onDeviceOllama, .signedApi]

/-- The name of a feature. -/
def Feature.name : Feature → String
  | .cloudLane => "lane:cloud"
  | .onDeviceOllama => "lane:on_device_ollama"
  | .signedApi => "api:signed"

/-- The feature of an exact name. -/
def Feature.ofName? (s : String) : Option Feature := Feature.all.find? (·.name == s)

/-- One setting of the schema. -/
structure Spec where
  /-- The setting's key. -/
  key : String
  /-- Secret or plain. -/
  kind : SettingKind
  /-- When it must be set. -/
  need : Need
  /-- What it configures. -/
  scope : Scope
  /-- The feature that makes it necessary, for a conditional setting. -/
  feature : Option Feature
  /-- What it is for. -/
  description : String
  /-- What to do when it is missing. -/
  remediation : String

/-- Every setting, in a fixed order. -/
def schema : List Spec := [
  ⟨"API_SECRET", .secret, .conditional, .runtime, some .signedApi,
    "HMAC secret used to verify the X-Signature header on control plane requests.",
    "Set API_SECRET before starting; signed endpoints answer 503 without it."⟩,
  ⟨"API_PORT", .plain, .optional, .runtime, none,
    "Listening port for the HTTP control plane API (default: 3100).",
    "Set API_PORT to change the control plane port, e.g. API_PORT=8080."⟩,
  ⟨"SWITCHYARD_CONFIG_PATH", .plain, .optional, .runtime, none,
    "Location of the JSON configuration file (default: ./switchyard.json).",
    "Point SWITCHYARD_CONFIG_PATH at a readable JSON file."⟩,
  ⟨"SWITCHYARD_DB_PATH", .plain, .optional, .runtime, none,
    "SQLite database for routing telemetry, breaker events and runbook chunks. `:memory:` keeps it in process.",
    "Set SWITCHYARD_DB_PATH to a writable file path."⟩,
  ⟨"ASK_TIMEOUT_MS", .plain, .optional, .orchestrator, none,
    "Wall-clock limit for one lane answerer attempt (default: 12000).",
    "Use a positive integer number of milliseconds."⟩,
  ⟨"ASK_MAX_RETRIES", .plain, .optional, .orchestrator, none,
    "Retries after the first failed attempt (default: 1).",
    "Use a non-negative integer."⟩,
  ⟨"ASK_BACKOFF_BASE_MS", .plain, .optional, .orchestrator, none,
    "Base delay for exponential backoff between attempts (default: 250).",
    "Use a non-negative integer number of milliseconds."⟩,
  ⟨"ASK_BACKOFF_MAX_MS", .plain, .optional, .orchestrator, none,
    "Upper bound on a single backoff wait (default: 4000).",
    "Use a non-negative integer number of milliseconds."⟩,
  ⟨"ASK_REQUEST_DEADLINE_MS", .plain, .optional, .orchestrator, none,
    "Overall deadline for one request, backoff included. Unset means no overall deadline.",
    "Use a positive integer number of milliseconds, or leave unset."⟩,
  ⟨"RAG_TOP_K", .plain, .optional, .orchestrator, none,
    "Number of runbook passages used for grounding and fallback answers (default: 5).",
    "Use a positive integer."⟩,
  ⟨"MIN_ANSWER_CHARS", .plain, .optional, .orchestrator, none,
    "Answers shorter than this are treated as low confidence (default: 60).",
    "Use a non-negative integer."⟩,
  ⟨"BREAKER_FAILURE_THRESHOLD", .plain, .optional, .breaker, none,
    "Consecutive failures that open a lane breaker (default: 3).",
    "Use an integer of at least 1."⟩,
  ⟨"BREAKER_SUCCESS_THRESHOLD", .plain, .optional, .breaker, none,
    "Consecutive half-open successes that close a lane breaker (default: 2).",
    "Use an integer of at least 1."⟩,
  ⟨"BREAKER_RECOVERY_TIMEOUT_MS", .plain, .optional, .breaker, none,
    "Time an open lane breaker waits before admitting a trial call (default: 60000).",
    "Use a non-negative integer number of milliseconds."⟩,
  ⟨"ENABLE_CLOUD_LANE", .plain, .optional, .lane, none,
    "Allow callers to request the cloud lane with a `cloud` source hint (default: false).",
    "Set ENABLE_CLOUD_LANE=true and configure CLOUD_API_KEY."⟩,
  ⟨"ON_DEVICE_MODE", .plain, .optional, .lane, none,
    "`ollama` calls the local model server; `stub` answers deterministically without a model.",
    "Use ON_DEVICE_MODE=ollama or ON_DEVICE_MODE=stub."⟩,
  ⟨"OLLAMA_BASE_URL", .plain, .conditional, .provider, some .onDeviceOllama,
    "Base URL of the local Ollama server (default: http://localhost:11434).",
    "Start Ollama or point OLLAMA_BASE_URL at a reachable host."⟩,
  ⟨"OLLAMA_MODEL", .plain, .optional, .provider, none,
    "Model used by the on-device lane.",
    "Pull the model with `ollama pull <model>` before starting."⟩,
  ⟨"CLOUD_API_BASE_URL", .plain, .optional, .provider, none,
    "Base URL of the OpenAI-compatible chat completions API used by the cloud lane.",
    "Set CLOUD_API_BASE_URL to the provider endpoint, ending before `/chat/completions`."⟩,
  ⟨"CLOUD_API_KEY", .secret, .conditional, .provider, some .cloudLane,
    "Bearer credential for the cloud lane provider.",
    "Set CLOUD_API_KEY when ENABLE_CLOUD_LANE is on; without it the cloud lane falls back."⟩,
  ⟨"CLOUD_MODEL", .plain, .optional, .provider, none,
    "Model used by the cloud lane.",
    "Use a model identifier the cloud provider accepts."⟩,
  ⟨"ROUTING_STRATEGY", .plain, .optional, .routing, none,
    "Default provider selection strategy (default: balanced).",
    "Use one of cost_optimized, latency_optimized, quality_optimized, balanced, failover, round_robin."⟩,
  ⟨"DAILY_COST_LIMIT_USD", .plain, .optional, .budget, none,
    "Daily spend limit tracked by the cost ledger (default: 10).",
    "Use a positive number."⟩,
  ⟨"MONTHLY_COST_LIMIT_USD", .plain, .optional, .budget, none,
    "Monthly spend limit tracked by the cost ledger (default: 100).",
    "Use a positive number."⟩,
  ⟨"COST_ALERT_THRESHOLD", .plain, .optional, .budget, none,
    "Fraction of either limit at which a budget alert is logged (default: 0.8).",
    "Use a number between 0 and 1."⟩]

/-- The setting of a key. -/
def findSpec (key : String) : Option Spec := schema.find? (·.key == key)

/-- The keys of the secret settings. -/
def secretKeys : List String := (schema.filter (·.kind == .secret)).map (·.key)

/-- Why a setting is reported. -/
inductive IssueKind where
  /-- A required setting has no value. -/
  | missingRequired
  /-- A setting needed by a feature that is on has no value. -/
  | missingConditional
  deriving DecidableEq, Repr

/-- The name of an issue kind. -/
def IssueKind.name : IssueKind → String
  | .missingRequired => "missing_required"
  | .missingConditional => "missing_conditional"

/-- A setting without a value that should have one. -/
structure Issue where
  /-- The setting's key. -/
  key : String
  /-- Why it is reported. -/
  kind : IssueKind
  /-- The feature that needs it, for a conditional setting. -/
  feature : Option Feature
  /-- What to do about it. -/
  remediation : String

/-- The issue of one setting, given whether it has a value and the features on. -/
def Spec.issue (s : Spec) (isSet : Bool) (active : List Feature) : Option Issue :=
  if isSet then none
  else match s.need, s.feature with
    | .required, _ => some ⟨s.key, .missingRequired, none, s.remediation⟩
    | .conditional, some f =>
      if active.contains f then some ⟨s.key, .missingConditional, some f, s.remediation⟩ else none
    | _, _ => none

/-- The settings without a value that should have one, in schema order. -/
def validate (isSet : String → Bool) (active : List Feature) : List Issue :=
  schema.filterMap fun s => s.issue (isSet s.key) active

end LaneGate.Config
