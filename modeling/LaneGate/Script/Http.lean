import LaneGate.Script.Runtime
import LaneGate.Api.Control
/-!
# Control-plane scripts

A control-plane script assembles the application as an application script does
(telemetry persisted unless `persistTelemetry` is false), puts the control plane
over it, and sends it requests: a method (`get` by default) and path, a JSON body
(`body`, written back as JSON) or a verbatim one (`raw`) with its content type
(`application/json` by default), and a signature header. The header is
`sha256=` and the HMAC of the payload (`signPayload`, or else the body sent) under
`signSecret` or else the environment's API secret; `header` gives it verbatim, and
`sign: false` leaves it out. Other steps move the clock (`advance`), change the
environment (`env`) or read the persisted telemetry (`persisted`).

A response shows its status and its body as the client reads it, with what
changes from run to run replaced: the timestamp by `present`, a correlation id by
`uuid`, and the uptime, memory and mean routing time by `number`. A response to
`HEAD` has no body. A request step also shows the prompts the prepared models
heard and the requests sent over the network, when there were any.
-/

namespace LaneGate.Script

open Wire Store

/-- A member's value replaced when the object has it. -/
def replaced (j : Json) (key : String) (v : Json) : Json :=
  if j.has key then j.set key v else j

/-- A correlation member written `uuid` when it holds an id. -/
def uuidMarked (j : Json) : Json :=
  match j.get? "correlationId" with
  | some (.str t) => if Api.isCorrelationId t.toString then j.set "correlationId" (Json.ofString "uuid") else j
  | _ => j

/-- A response body with what changes from run to run replaced. -/
def steadyBody (body : Json) : Json :=
  let body := uuidMarked (replaced body "timestamp" (Json.ofString "present"))
  match body.get? "data" with
  | some data =>
    let data := uuidMarked data
    let data := replaced (replaced data "uptimeSec" (Json.ofString "number")) "memoryUsageMb"
      (Json.ofString "number")
    let data := match data.get? "routing" with
      | some routing => data.set "routing" (replaced routing "avgRoutingTimeMs" (Json.ofString "number"))
      | none => data
    body.set "data" data
  | none => body

/-- A body as the client reads it: written as JSON and read back. -/
def asReceived (body : Json) : Json := (Json.parse (Json.render body)).getD .null

/-- The request a step sends. -/
def requestOf (c : Api.Control) (step : Json) : Api.Request :=
  let method := String.ofList ((strD step "method" "get").toList.map Char.toUpper)
  let sent : Option String := match field? step "raw" with
    | some r => some (Json.shown r)
    | none => (step.get? "body").map Json.orderedText
  let signature : Option String :=
    if (match step.get? "sign" with | some (.bool false) => true | _ => false) then none
    else
      match field? step "header" with
      | some h =>
        let blank (ch : Char) : Bool := ch == ' ' || ch == '\t'
        some (String.ofList (((Json.shown h).toList.dropWhile blank).reverse.dropWhile blank).reverse)
      | none =>
        let payload := match field? step "signPayload" with
          | some p => Json.shown p
          | none => sent.getD ""
        let secret := match field? step "signSecret" with
          | some s => Json.shown s
          | none => ((c.sources.env.find? fun (p : String × String) => p.1 == "API_SECRET").map (·.2)).getD ""
        some (Api.signaturePrefix ++ Api.signatureOf secret payload)
  { method, target := strD step "path" "/", contentType := some (strD step "contentType" "application/json"),
    body := sent, signature }

/-- The environment pairs of a step. -/
def envPairs (step : Json) : List (String × String) :=
  match step.get? "env" with
  | some (.obj ms) => ms.map fun (p : String × Json) => (p.1, Json.shown p.2)
  | _ => []

/-- The members a request step shows besides its response: prompts and sent
requests, when there were any. -/
def trafficMembers (s : Service) : List (String × Json) :=
  (if s.heard.isEmpty then [] else [("prompts", .arr (s.heard.map Json.str))]) ++
    (if s.requests.isEmpty then [] else [("fetchCalls", .arr (s.requests.map sentJson))])

/-- One control-plane step: what it shows, and the control plane after. -/
def controlStep (c : Api.Control) (step : Json) : Json × Api.Control :=
  let c := c.withService { c.service with heard := [], requests := [] }
  match strD step "do" "" with
  | "advance" => (.obj [], c.withService (c.service.advance (numD step "ms" 0)))
  | "env" => (.obj [], c.setEnv (envPairs step))
  | "persisted" =>
    let t := c.service.tables
    (.obj [("value", .obj [("routingEvents", .arr (t.decisions.map storedDecisionJson)),
        ("breakerEvents", .arr (t.breakerEvents.map storedEventJson)),
        ("usage", .arr (t.usage.map storedUsageJson))])], c)
  | _ =>
    let req := requestOf c step
    let (resp, c) := c.serve req
    let body := if req.method == "HEAD" then .obj [] else steadyBody (asReceived resp.body)
    (.obj ([("status", Json.ofNat resp.status), ("body", body)] ++ trafficMembers c.service), c)

/-- Runs a control-plane script. -/
def runHttp (req : Json) : Except Fault Json :=
  let given : Replacements :=
    { onDevice := (field? req "onDevice").map modelOf, cloud := (field? req "cloud").map modelOf,
      network := match field? req "fetch" with
        | some f => replyOf f
        | none => .failed "fetch failed" }
  let persist := if (field? req "persistTelemetry").isSome then flag req "persistTelemetry" else true
  let sources := sourcesOf req
  match Runtime.create sources given persist (secretsOf req) (startOf req) with
  | .error f => .ok (faultJson f)
  | .ok r =>
    let c := Api.Control.create (Runtime.record r) sources
    let (_, steps) := (items req "steps").foldl
      (fun (acc : Api.Control × List Json) step =>
        let (shown, c) := controlStep acc.1 step
        (c, acc.2 ++ [shown]))
      (c, [])
    .ok (.arr steps)

end LaneGate.Script
