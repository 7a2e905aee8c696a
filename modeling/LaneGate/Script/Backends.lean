import LaneGate.Script.Decode
import LaneGate.Script.Encode
import LaneGate.Backend.Model
/-!
# Backend scripts

A backend script builds one backend from its options, asks it for a prompt over a
scripted network, and shows the requests it sent and what it answered.
-/

namespace LaneGate.Script

open Backend

/-- The scripted network: a failure when `network` is true in a condition (its text
when it is one, else `fetch failed`), or else an answer built from a status (200 by
default) and a body (a text as it is, other JSON written out, `{}` by default). -/
def replyOf (j : Json) : Reply :=
  match j.get? "network" with
  | some v =>
    if v.truthy then .failed (match v with | .str m => m.toString | _ => "fetch failed")
    else answerOf j
  | none => answerOf j
where
  answerOf (j : Json) : Reply :=
    let body := match field? j "body" with
      | some (.str t) => t
      | some v => Text.ofString (Json.render v)
      | none => Text.ofString "\x7b\x7d"
    Reply.respond ((field? j "status").map numberOf |>.getD 200) body

/-- A base address, which must be a text. -/
def baseUrlOf (o : Json) : Except Fault String :=
  match o.get? "baseUrl" with
  | some (.str t) => .ok t.toString
  | _ => .error .wrongType

/-- A backend of a kind from its options, kept as they are given. -/
def backendOf (kind : String) (o : Json) : Except Fault Backend :=
  match kind with
  | "ollama" =>
    (baseUrlOf o).map fun base =>
      .ollama (givenOr o "name" (Json.ofString "ollama")) base (o.get? "model")
  | "openai" =>
    (baseUrlOf o).map fun base =>
      .openAiCompatible (givenOr o "name" (Json.ofString "openai_compatible")) base
        (presentOr o "apiKey" .null) (o.get? "model") (givenOr o "maxTokens" (.num 1024))
  | _ =>
    .ok (.stub (presentOr o "name" (Json.ofString "on_device_stub"))
      (presentOr o "answer" (Json.ofString stubAnswer)))

/-- A sent request as the script shows it. -/
def requestJson (r : Request) : Json :=
  .obj [("url", Json.ofString r.url), ("method", Json.ofString "POST"),
    ("headers", .obj (r.headers.map fun (k, v) => (k, Json.ofString v))), ("body", r.body)]

/-- A generation as JSON. -/
def generationJson (g : Generation) : Json :=
  .obj [("text", g.text), ("provider", g.provider),
    ("tokenEstimate", Json.ofOption .num g.tokenEstimate)]

/-- Runs a backend script. -/
def runBackend (req : Json) : Except Fault Json := do
  let b ← backendOf (strD req "kind" "stub") (req.getD "options")
  let cancelled :=
    if flag req "aborted" then
      some (match field? req "abortReason" with
        | some spec => faultOfSpec spec
        | none => .callTimeout (Json.ofString "op") (.num 1000))
    else none
  let reply := replyOf (req.getD "fetch")
  let (sent, r) := b.generate (secretsOf req) (req.get? "prompt") cancelled (fun _ => reply)
  let shown := match r with
    | .ok g => .obj [("value", generationJson g)]
    | .error f => faultJson f
  pure (withMembers shown [("name", b.name), ("calls", .arr (sent.map requestJson))])

end LaneGate.Script
