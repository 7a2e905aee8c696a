import LaneGate.Json.Reader
import LaneGate.Json.Writer
import LaneGate.Json.Primitive
import LaneGate.Redact
import LaneGate.Routing.Cost
import LaneGate.Decimal.Binary
/-!
# Model backends

A backend turns a prompt into text. Three kinds exist:

* a local model server, asked with `POST <base>/api/generate` and
  `{model, prompt, stream: false}`; the answer is the `response` text and the token
  count its `eval_count`;
* a chat-completions endpoint, asked with `POST <base>/chat/completions`, a bearer
  key and `{model, messages: [{role: "user", content}], max_tokens}` (1024 by
  default); the answer is the first choice's message content and the token count
  the usage's `total_tokens`. Without a key (a key that is not true in a condition)
  it refuses before sending anything;
* a stub that always gives the same answer, with its estimated token count.

A backend keeps the values it was built with as they were given: its name, model,
key and token limit go into requests and faults unchanged, and a name is written
into a message as its text.

Trailing slashes of a base address are dropped. A request that gets no answer fails
as retryable (or with the cancelling reason when the call was cancelled). An answer
with a status outside 2xx fails with the status and the first 300 units of its
redacted body: retryable for 429 and 5xx, and as an unusable backend otherwise. A
2xx body that is not JSON is malformed; fields of the wrong type count as missing
(an empty text, no token count).

An answer is built from a status and a body as HTTP answers are (`Reply.respond`):
the status is made a 16-bit unsigned integer and must lie from 200 to 599, and a
status that carries no body (204, 205, 304) cannot be built with one; a failure
to build it is a request that got no answer. A body is sent as UTF-8, so a lone
surrogate becomes U+FFFD, and reading it back drops up to two leading byte order
marks (the decoder's and the reader's).
-/

namespace LaneGate.Backend

/-- What a backend answered. -/
structure Generation where
  /-- The text: the answer read from the reply, or a stub's answer as it was given. -/
  text : Json
  /-- The backend's name, as it was given. -/
  provider : Json
  /-- The tokens used, if the backend says. -/
  tokenEstimate : Option Float

/-- An HTTP request a backend sends. -/
structure Request where
  /-- Where to. -/
  url : String
  /-- Header names (lowered) and values, in the order set. -/
  headers : List (String × String)
  /-- The JSON body. -/
  body : Json

/-- How the network answered a request. -/
inductive Reply where
  /-- No answer came; the failure's message. -/
  | failed (message : String)
  /-- An answer with its status and body text. -/
  | answered (status : Nat) (body : Text)

/-- The statuses of answers that carry no body. -/
def bodilessStatuses : List Nat := [101, 103, 204, 205, 304]

/-- A number as a 16-bit unsigned integer: its whole part modulo `2^16`, and zero
for not-a-number and the infinities. -/
def unsignedShort (x : Float) : Nat :=
  if x.isNaN || x.isInf then 0 else (Decimal.wholePart x % 65536).toNat

/-- The byte order mark. -/
def byteOrderMark : UInt16 := 0xFEFF

/-- A list of units without one leading byte order mark. -/
def dropMark : List UInt16 → List UInt16
  | u :: us => if u == byteOrderMark then us else u :: us
  | [] => []

namespace Reply

/-- The answer built from a status and a body, or the failure to build it. -/
def respond (status : Float) (body : Text) : Reply :=
  let code := unsignedShort status
  if code < 200 || code > 599 then
    .failed "init[\"status\"] must be in the range of 200 to 599, inclusive."
  else if bodilessStatuses.contains code then
    .failed ("Response constructor: Invalid response status code " ++ toString code)
  else .answered code (Text.ofString (Text.wellFormed body.toString))

end Reply

/-- A body as it reads back: without up to two leading byte order marks. -/
def readBody (body : Text) : Text := ⟨dropMark (dropMark body.units)⟩

/-- The default answer of a stub backend. -/
def stubAnswer : String := "(stub) The local model is disabled; returning a placeholder answer."

/-- A model backend, with the values it was built with. -/
inductive Backend where
  /-- A local model server: name, base address and model. -/
  | ollama (name : Json) (baseUrl : String) (model : Option Json)
  /-- A chat-completions endpoint: name, base address, key, model and token limit. -/
  | openAiCompatible (name : Json) (baseUrl : String) (apiKey : Json) (model : Option Json)
      (maxTokens : Json)
  /-- A fixed answer under a name. -/
  | stub (name : Json) (answer : Json)

/-- An address without its trailing slashes. -/
def trimSlashes (url : String) : String :=
  String.ofList ((url.toList.reverse.dropWhile (· == '/')).reverse)

/-- A JSON object with the members that are set. -/
def members (ms : List (String × Option Json)) : Json :=
  .obj (ms.filterMap fun (k, v) => v.map (k, ·))

namespace Backend

/-- The backend's name, as it was given. -/
def name : Backend → Json
  | .ollama n _ _ => n
  | .openAiCompatible n .. => n
  | .stub n _ => n

/-- The backend's name as a text. -/
def label (b : Backend) : String := Json.shown b.name

/-- The request a backend sends for a prompt (missing when none was given): none
for a stub, a refusal for a chat endpoint without a key. -/
def request (b : Backend) (prompt : Option Json) : Except Fault (Option Request) :=
  match b with
  | .stub .. => .ok none
  | .ollama _ baseUrl model =>
    .ok (some ⟨trimSlashes baseUrl ++ "/api/generate", [("content-type", "application/json")],
      members [("model", model), ("prompt", prompt), ("stream", some (.bool false))]⟩)
  | .openAiCompatible n baseUrl apiKey model maxTokens =>
    if !apiKey.truthy then
      .error (.providerUnavailable n (Text.ofString (b.label ++ " has no API key configured")))
    else
      .ok (some ⟨trimSlashes baseUrl ++ "/chat/completions",
        [("content-type", "application/json"), ("authorization", "Bearer " ++ Json.shown apiKey)],
        members [("model", model),
          ("messages", some (.arr [members [("role", some (Json.ofString "user")), ("content", prompt)]])),
          ("max_tokens", some maxTokens)]⟩)

/-- The generation in a 2xx body that read as JSON. -/
def extract (b : Backend) (payload : Json) : Generation :=
  match b with
  | .openAiCompatible n .. =>
    let text := match payload.get? "choices" with
      | some (.arr (first :: _)) =>
        match first.get? "message" with
        | some (.obj ms) =>
          match (Json.obj ms).get? "content" with
          | some (.str t) => t
          | _ => Text.empty
        | _ => Text.empty
      | _ => Text.empty
    let tokens := match payload.get? "usage" with
      | some (.obj ms) => (Json.obj ms).get? "total_tokens" |>.bind Json.num?
      | _ => none
    ⟨.str text, n, tokens⟩
  | _ =>
    let text := match payload.get? "response" with
      | some (.str t) => t
      | _ => Text.empty
    ⟨.str text, b.name, (payload.get? "eval_count").bind Json.num?⟩

/-- The outcome of a reply; `cancelled` is the reason of a call cancelled before the
reply came. -/
def interpret (b : Backend) (secrets : List Text) (cancelled : Option Fault) : Reply → Except Fault Generation
  | .failed message =>
    match cancelled with
    | some reason => .error reason
    | none => .error (.transientBackend b.name (Text.ofString (b.label ++ " request failed: " ++ message)) .null)
  | .answered status body =>
    let body := readBody body
    if 200 ≤ status && status < 300 then
      match Json.parse body.toString with
      | some payload => .ok (b.extract (if payload.isObject then payload else .obj []))
      | none => .error .malformed
    else
      let detail := (Redact.scrub secrets body).take 300
      let message := Text.ofString (b.label ++ " returned HTTP " ++ toString status) ++
        (if detail.units.isEmpty then Text.empty else Text.ofString ": " ++ detail)
      if status == 429 || status ≥ 500 then .error (.transientBackend b.name message (Json.ofNat status))
      else .error (.providerUnavailable b.name message)

/-- A stub's answer with its token estimate: a text is measured, an answer that is
not true in a condition counts zero tokens, and any other value cannot be measured
(a value of the wrong type). -/
def stubGeneration (n answer : Json) : Except Fault Generation :=
  match answer with
  | .str t => .ok ⟨answer, n, some (estimateTokens t.toString).toFloat⟩
  | _ => if answer.truthy then .error .wrongType else .ok ⟨answer, n, some 0⟩

/-- Asks a backend for a prompt: the requests it sent and the outcome. `cancelled` is
the reason of a call whose signal was already cancelled, and `fetch` the network. -/
def generate (b : Backend) (secrets : List Text) (prompt : Option Json) (cancelled : Option Fault)
    (fetch : Request → Reply) : List Request × Except Fault Generation :=
  match b with
  | .stub n answer =>
    match cancelled with
    | some reason => ([], .error reason)
    | none => ([], stubGeneration n answer)
  | _ =>
    match b.request prompt with
    | .error f => ([], .error f)
    | .ok none => ([], .error .wrongType)
    | .ok (some r) =>
      let reply := match cancelled with
        | some _ => Reply.failed "This operation was aborted"
        | none => fetch r
      ([r], b.interpret secrets cancelled reply)

end Backend

end LaneGate.Backend
