import LaneGate.Fault
import LaneGate.Json.Primitive
import LaneGate.Setting
import LaneGate.Text.Blank
import LaneGate.Clock
/-!
# Providers

A provider is a model backend the router can send a request to: its kind, model,
priority (lower is preferred), weight, cost per thousand tokens, latency, limits and
capabilities, plus moving averages of its latency and success rate.

A provider is described by a name, a kind and a model; every other field has a
default, and an unset cost takes the default of the kind. The name must be a text
and not blank, and the kind must be known; the capabilities are gone through item
by item (a text by its characters); priority, weight, cost, latency and rate limit
must be finite and not negative, checked in that order. The model, token limit,
capabilities, enabled flag, request count, breaker name, success rate and last use
are kept as given: the enabled flag is judged as a condition, the request count is
compared and counted as a number, and the success rate becomes a number once a
call is folded in.

The registry keeps providers in the order they were first registered (registering a
name again replaces it in place). Each provider counts the requests started in its
current one-minute window; any read of a provider after its window has run out
starts a new window with a count of zero. Times are time values in ms, doubles that
may stand between whole milliseconds; the last use is written as the date of its
whole millisecond.
-/

namespace LaneGate

/-- The kind of a model backend. -/
inductive Kind where
  | ollama
  | bedrock
  | openai
  | azureOpenai
  | anthropic
  | vertexAi
  | openaiCompatible
  deriving DecidableEq, Repr, Inhabited

namespace Kind

/-- All kinds. -/
def all : List Kind :=
  [.ollama, .bedrock, .openai, .azureOpenai, .anthropic, .vertexAi, .openaiCompatible]

/-- The name of a kind. -/
def name : Kind → String
  | .ollama => "ollama"
  | .bedrock => "bedrock"
  | .openai => "openai"
  | .azureOpenai => "azure_openai"
  | .anthropic => "anthropic"
  | .vertexAi => "vertex_ai"
  | .openaiCompatible => "openai_compatible"

/-- The kind of an exact name. -/
def ofName? (s : String) : Option Kind := all.find? (·.name == s)

/-- The usual price of a kind, in USD per thousand tokens. -/
def defaultCostPer1k : Kind → Float
  | .ollama => 0
  | .bedrock => 0.002
  | .openai => 0.01
  | .azureOpenai => 0.01
  | .anthropic => 0.008
  | .vertexAi => 0.005
  | .openaiCompatible => 0.01

end Kind

/-- A registered model backend. Fields the router only passes on or judges as a
condition are kept as the values they were given. -/
structure Provider where
  /-- Its unique name. -/
  name : String
  /-- Its kind. -/
  kind : Kind
  /-- The model it serves, as given (none when not given at all). -/
  model : Option Json
  /-- Preference, lower is preferred. -/
  priority : Float
  /-- Share in weighted selection. -/
  weight : Float
  /-- Price in USD per thousand tokens. -/
  costPer1kTokens : Float
  /-- Moving average of its latency, in ms. -/
  avgLatencyMs : Float
  /-- The most tokens it takes, as given. -/
  maxTokens : Json
  /-- What it can do, item by item as given. -/
  capabilities : List Json
  /-- Whether it takes requests: any value, judged as a condition. -/
  enabled : Json
  /-- Requests it takes per minute. -/
  rateLimitRpm : Float
  /-- Requests started in the current minute window, as given until counted. -/
  currentRpm : Json
  /-- The name of the breaker that guards it, as given (`null` for none). -/
  circuitBreakerName : Json
  /-- Moving average of call outcomes, 1 being always successful; as given until a
  call is folded in. -/
  successRate : Json
  /-- When it was last used: as given, then the ISO text of the last use. -/
  lastUsedAt : Json
  deriving Inhabited

/-- A provider description: name, kind and model as given, and the fields that are
set (a field missing or `null` takes its default). -/
structure ProviderInput where
  /-- The name, which must be a text. -/
  name : Json
  /-- The kind, as given. -/
  kind : Json
  /-- The model, as given (none when missing). -/
  model : Option Json := none
  /-- Preference, lower is preferred. -/
  priority : Option Given := none
  /-- Share in weighted selection. -/
  weight : Option Given := none
  /-- Price per thousand tokens. -/
  costPer1kTokens : Option Given := none
  /-- Latency, in ms. -/
  avgLatencyMs : Option Given := none
  /-- The most tokens it takes. -/
  maxTokens : Option Json := none
  /-- What it can do: a list, or a text of single characters. -/
  capabilities : Option Json := none
  /-- Whether it takes requests. -/
  enabled : Option Json := none
  /-- Requests per minute. -/
  rateLimitRpm : Option Given := none
  /-- Requests already started this minute. -/
  currentRpm : Option Json := none
  /-- Its breaker. -/
  circuitBreakerName : Option Json := none
  /-- Success rate so far. -/
  successRate : Option Json := none
  /-- When it was last used. -/
  lastUsedAt : Option Json := none

/-- The items a value is gone through as: a list's items, a text's characters (a
surrogate pair as one); other values cannot be gone through. -/
def itemsOf : Json → Except Fault (List Json)
  | .arr xs => .ok xs
  | .str t => .ok (t.pieces.map fun
    | .char c => Json.ofString (String.singleton c)
    | .lone u => .str ⟨[u]⟩)
  | _ => .error .wrongType

namespace Provider

/-- The check of a field that must be finite and not negative. -/
def checkAmount (name field : String) (g : Given) : Except Fault Float :=
  match g with
  | .num x => if Decimal.isFinite x && x ≥ 0 then .ok x else bad
  | .other _ => bad
where
  /-- The complaint about the field. -/
  bad : Except Fault Float :=
    .error (.configuration ("Provider '" ++ name ++ "': " ++ field ++ " must be a non-negative number."))

/-- A provider from its description, with defaults filled in. A name that is not a
text is a value of the wrong type. -/
def make (i : ProviderInput) : Except Fault Provider := do
  let .str nameText := i.name | throw .wrongType
  let name := nameText.toString
  if Text.isBlankText name then throw (.configuration "Provider name must not be empty.")
  let some kind := (match i.kind with
      | .str k => Kind.ofName? k.toString
      | _ => none)
    | throw (.configuration ("Provider '" ++ name ++ "' has unknown kind '" ++ Json.shown i.kind ++ "'."))
  let capabilities ← itemsOf (i.capabilities.getD (Json.ofStrings ["chat"]))
  let priority ← checkAmount name "priority" (i.priority.getD (.num 10))
  let weight ← checkAmount name "weight" (i.weight.getD (.num 1))
  let cost ← checkAmount name "costPer1kTokens" (i.costPer1kTokens.getD (.num kind.defaultCostPer1k))
  let latency ← checkAmount name "avgLatencyMs" (i.avgLatencyMs.getD (.num 1000))
  let rpm ← checkAmount name "rateLimitRpm" (i.rateLimitRpm.getD (.num 60))
  pure { name, kind, model := i.model, priority, weight, costPer1kTokens := cost,
         avgLatencyMs := latency, maxTokens := i.maxTokens.getD (.num 4096),
         capabilities, enabled := i.enabled.getD (.bool true),
         rateLimitRpm := rpm, currentRpm := i.currentRpm.getD (.num 0),
         circuitBreakerName := i.circuitBreakerName.getD .null,
         successRate := i.successRate.getD (.num 1), lastUsedAt := i.lastUsedAt.getD .null }

/-- Whether a provider can do a thing: one of its capabilities is that text. -/
def can (p : Provider) (capability : String) : Bool :=
  p.capabilities.any fun
    | .str t => t.toString == capability
    | _ => false

/-- Whether a provider takes requests now: enabled and below its rate limit. -/
def available (p : Provider) : Bool :=
  p.enabled.truthy && Primitive.lessThan (Primitive.ofJson p.currentRpm) (.num p.rateLimitRpm)

end Provider

/-- The length of a request-counting window, in ms. -/
def rateWindowMs : Float := 60000

/-- A registered provider and the start of its current window. -/
structure Registered where
  /-- The provider. -/
  provider : Provider
  /-- When its current window started. -/
  windowStart : Float

/-- An entry as seen now: a window that has run out starts again with no requests. -/
def Registered.roll (e : Registered) (now : Float) : Registered :=
  if now - e.windowStart ≥ rateWindowMs then ⟨{ e.provider with currentRpm := .num 0 }, now⟩ else e

/-- The registered providers, in registration order; names are unique. -/
structure Providers where
  /-- The entries, in registration order. -/
  entries : List Registered := []

namespace Providers

/-- The number of providers. -/
def size (r : Providers) : Nat := r.entries.length

/-- Whether a provider of that name is registered. -/
def has (r : Providers) (name : String) : Bool := r.entries.any (·.provider.name == name)

/-- Registers a provider (replacing one of the same name in place) and starts its
window now. -/
def register (r : Providers) (i : ProviderInput) (now : Float) : Except Fault (Provider × Providers) := do
  let p ← Provider.make i
  let e : Registered := ⟨p, now⟩
  let entries :=
    if r.has p.name then r.entries.map fun x => if x.provider.name == p.name then e else x
    else r.entries ++ [e]
  pure (p, ⟨entries⟩)

/-- Removes a provider, and says whether it was there. -/
def unregister (r : Providers) (name : String) : Providers × Bool :=
  (⟨r.entries.filter (·.provider.name != name)⟩, r.has name)

/-- Changes the entry of a name (seen now) and returns its provider after the change. -/
def modify (r : Providers) (name : String) (now : Float) (f : Provider → Provider) :
    Option Provider × Providers :=
  match r.entries.find? (·.provider.name == name) with
  | none => (none, r)
  | some e =>
    let e := e.roll now
    let e := { e with provider := f e.provider }
    (some e.provider, ⟨r.entries.map fun x => if x.provider.name == name then e else x⟩)

/-- The provider of a name, as seen now. -/
def get (r : Providers) (name : String) (now : Float) : Option Provider × Providers :=
  r.modify name now id

/-- The provider of a name, or `NotFoundError`. -/
def require (r : Providers) (name : String) (now : Float) : Except Fault Provider × Providers :=
  match r.get name now with
  | (some p, r) => (.ok p, r)
  | (none, r) => (.error (.notFound (Json.ofString "Provider") (Key.ofString name)), r)

/-- All providers, in registration order, as seen now. -/
def list (r : Providers) (now : Float) : List Provider × Providers :=
  let entries := r.entries.map (·.roll now)
  (entries.map (·.provider), ⟨entries⟩)

/-- Enables or disables a provider; the flag is kept as given. -/
def setEnabled (r : Providers) (name : String) (enabled : Json) (now : Float) :
    Except Fault Provider × Providers :=
  match r.modify name now (fun p => { p with enabled }) with
  | (some p, r) => (.ok p, r)
  | (none, r) => (.error (.notFound (Json.ofString "Provider") (Key.ofString name)), r)

/-- Whether a provider takes requests now, judged on its registered entry if there is
one and on the given copy otherwise. -/
def isAvailable (r : Providers) (p : Provider) (now : Float) : Bool × Providers :=
  match r.get p.name now with
  | (some live, r) => (live.available, r)
  | (none, r) => (p.available, r)

/-- Counts a request against a provider's current window (the count made a number
first). -/
def recordStart (r : Providers) (name : String) (now : Float) : Providers :=
  (r.modify name now fun p =>
    { p with currentRpm := .num ((Primitive.ofJson p.currentRpm).toNumber + 1) }).2

/-- Folds a finished call into a provider's moving averages of success and latency,
with weight `alpha` for the new call, and marks it used now; when now is no date
the averages are still updated but the mark fails. -/
def recordOutcome (r : Providers) (name : String) (success : Bool) (latencyMs alpha : Float)
    (now : Float) : Except Fault Unit × Providers :=
  let averaged := r.modify name now fun p =>
    { p with
      successRate :=
        .num ((1 - alpha) * (Primitive.ofJson p.successRate).toNumber + alpha * (if success then 1 else 0))
      avgLatencyMs := (1 - alpha) * p.avgLatencyMs + alpha * latencyMs }
  match averaged with
  | (none, r) => (.ok (), r)
  | (some _, r) =>
    match Clock.clip? now with
    | none => (.error .invalidTime, r)
    | some t => (.ok (), (r.modify name now fun p => { p with lastUsedAt := Json.ofString (Clock.iso t) }).2)

end Providers

end LaneGate
