import LaneGate.Answer.Service
import LaneGate.Config.Sources
import LaneGate.Store.Telemetry
/-!
# The assembled application

The application is wired from its configuration:

* the question pipeline settings, the spending limits and the routing strategy (a
  strategy name that is not known is a configuration fault, and nothing is built);
* a router holding the lane backends' routing entries (the cloud one only when a
  cloud key is set);
* the grounded lane, whose model is the stub when the on-device mode is `stub` and
  the local model server otherwise; and the cloud lane, only when it is enabled,
  whose model is the chat-completions endpoint;
* the answering service over both, grounding its fallback in the grounded lane's
  retrieval, with the router attached and sharing the breakers.

Either lane's model may be replaced by one given in its place. When telemetry is
persisted, every breaker event, routing decision and finished call is written to
the tables as it is reported; otherwise it is dropped.
-/

namespace LaneGate

open Config Store

/-- Models given in place of the configured ones, and what the network answers. -/
structure Replacements where
  /-- The grounded lane's model, if replaced. -/
  onDevice : Option Model := none
  /-- The cloud lane's model, if replaced. -/
  cloud : Option Model := none
  /-- What the network answers every request. -/
  network : Backend.Reply

/-- The assembled application. -/
structure Runtime where
  /-- The answering service, with the router attached. -/
  service : Service
  /-- Whether telemetry is written to the tables. -/
  persist : Bool
  /-- Row ids handed out so far. -/
  issued : Nat := 0

namespace Runtime

/-- The configured model of the grounded lane. -/
def onDeviceModel (s : Sources) (network : Backend.Reply) : Model :=
  let d : BackendSettings := {}
  match s.onDeviceMode with
  | .stub => .backend (.stub (Json.ofString "on_device_stub") (Json.ofString Backend.stubAnswer)) network
  | .ollama =>
    .backend (.ollama (Json.ofString Sources.onDeviceProviderName)
      (s.valueD "OLLAMA_BASE_URL" d.ollamaBaseUrl)
      (some (Json.ofString (s.valueD "OLLAMA_MODEL" d.ollamaModel)))) network

/-- The configured model of the cloud lane. -/
def cloudModel (s : Sources) (network : Backend.Reply) : Model :=
  let d : BackendSettings := {}
  .backend (.openAiCompatible (Json.ofString Sources.cloudProviderName)
    (s.valueD "CLOUD_API_BASE_URL" d.cloudApiBaseUrl) (Json.ofString (s.valueD "CLOUD_API_KEY" ""))
    (some (Json.ofString (s.valueD "CLOUD_MODEL" d.cloudModel))) (.num 1024)) network

/-- The router of a configuration, with the lane backends registered. -/
def routerOf (s : Sources) (now : Float) : Except Fault Router := do
  let strategy ← Strategy.parse (s.valueD "ROUTING_STRATEGY" ({} : RoutingSettings).defaultStrategy)
  let r := Router.create s.limits [] {} (.known strategy) now
  s.defaultProviders.foldlM
    (fun (r : Router) p => do
      let (_, providers) ← r.providers.register p now
      pure { r with providers })
    r

/-- Builds the application from a configuration. -/
def create (s : Sources) (given : Replacements) (persist : Bool) (secrets : List Text) (now : Float) :
    Except Fault Runtime := do
  let config := s.pipeline
  let enabled := s.cloudLaneEnabled
  let router ← routerOf s now
  let onDevice : Answerer :=
    { lane := .onDeviceRag, model := given.onDevice.getD (onDeviceModel s given.network),
      topK := config.topK }
  let cloud : Answerer := { lane := .cloudDirect, model := given.cloud.getD (cloudModel s given.network) }
  let policy : LanePolicy String := ⟨enabled, Sources.onDeviceProviderName, Sources.cloudProviderName⟩
  let service ← Service.create config policy (if enabled then [onDevice, cloud] else [onDevice])
    .onDevice (Confidence.Policy.make config.minAnswerChars.toNumber) (some router) {} {} secrets now
  pure ⟨service, persist, 0⟩

/-- The id of the `n`-th row handed out. -/
def rowId (n : Nat) : String := "row-" ++ toString n

/-- Writes the telemetry reported since the last write to the tables (when
persisting), and clears it. -/
def record (r : Runtime) : Runtime :=
  let s := r.service
  if !r.persist then { r with service := { s with events := [], sent := [] } }
  else
    let (t, n) := s.events.foldl
      (fun (acc : Tables × Nat) e =>
        let n := acc.2 + 1
        ((acc.1.saveBreakerEvent (breakerRowOf (rowId n) e)).toOption.getD acc.1, n))
      (s.tables, r.issued)
    let (t, n) := s.sent.foldl
      (fun (acc : Tables × Nat) x =>
        match x with
        | .decision d =>
          let n := acc.2 + 1
          let t := (acc.1.saveDecision (decisionRowOf (rowId n) d)).toOption.getD acc.1
          (t.trimDecisions.toOption.getD t, n)
        | .result c time =>
          ((acc.1.saveUsage (.text c.providerName.text) (c.success.any Json.truthy)
              (.ofNumber (Primitive.ofOption c.latencyMs).toNumber) (Primitive.ofJson c.tokensUsed).toNumber
              (.ofNumber (Primitive.ofJson c.cost).toNumber) (.text (Clock.isoAt time))).toOption.getD acc.1,
            acc.2))
      (t, n)
    { r with service := { s with tables := t, events := [], sent := [] }, issued := n }

end Runtime

end LaneGate
