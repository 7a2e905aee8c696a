import LaneGate.Backend.Model
import Mathlib
/-!
# What a backend call comes to

A chat endpoint without a key refuses before it sends anything. Every other backend
that talks to a server (a local server, a chat endpoint with a key) sends exactly one
request, to its base address without trailing slashes followed by its own path
(`postsTo`), and what the call comes to is decided by the rows of `Classified`:

* a cancelled call fails with the reason it was cancelled for, whatever the network did;
* a request that got no answer is worth retrying, without a status;
* an answer outside 2xx is worth retrying, with its status, for 429 and 5xx, and makes
  the backend unusable otherwise; either way the message names the backend and the
  status, then the first 300 units of the cleaned body when there is any body left;
* a 2xx answer that reads as JSON gives its text member when that is a text and the
  empty text otherwise, whatever the shape of the JSON; one that does not read is
  malformed.

Main statement: `calls_are_classified`.
-/

namespace LaneGate

namespace Json

/-- The first item of an array. -/
def firstItem? : Json → Option Json
  | .arr (x :: _) => some x
  | _ => none

theorem get?_of_isObject_eq_false {j : Json} (h : j.isObject = false) (key : String) :
    j.get? key = none := by
  cases j <;> first | rfl | simp [isObject] at h

end Json

namespace Backend

/-- An address without its trailing slashes is the address less a run of slashes at its
end, and it does not end in a slash. -/
theorem trimSlashes_spec (url : String) :
    (∃ k, (trimSlashes url).toList ++ List.replicate k '/' = url.toList) ∧
      (trimSlashes url).toList.getLast? ≠ some '/' := by
  have htake : url.toList.reverse.takeWhile (· == '/') =
      List.replicate (url.toList.reverse.takeWhile (· == '/')).length '/' :=
    List.eq_replicate_iff.2 ⟨rfl, fun c hc => by simpa using List.mem_takeWhile_imp hc⟩
  constructor
  · refine ⟨(url.toList.reverse.takeWhile (· == '/')).length, ?_⟩
    rw [trimSlashes, String.toList_ofList, ← List.reverse_replicate, ← htake, ← List.reverse_append,
      List.takeWhile_append_dropWhile, List.reverse_reverse]
  · rw [trimSlashes, String.toList_ofList, List.getLast?_reverse]
    intro h
    have hnot := List.head?_dropWhile_not (· == '/') url.toList.reverse
    rw [h] at hnot
    simp at hnot

/-- A text member, or the empty text when the member is missing or not a text. -/
def textOr : Option Json → Json
  | some (.str t) => .str t
  | _ => .str Text.empty

/-- The message of an answer refused with a status: the backend, the status, and the
first 300 units of the cleaned body when any is left. -/
def refusal (label : String) (status : Nat) (detail : Text) : Text :=
  Text.ofString (label ++ " returned HTTP " ++ toString status) ++
    if detail.units = [] then Text.empty else Text.ofString ": " ++ detail.take 300

namespace Backend

/-- Where a backend posts its requests, if it posts at all: a local server to
`/api/generate` and a chat endpoint that has a key to `/chat/completions`, each under its
base address without trailing slashes. -/
def postsTo : Backend → Option String
  | .ollama _ base _ => some (trimSlashes base ++ "/api/generate")
  | .openAiCompatible _ base key _ _ =>
    if key.truthy then some (trimSlashes base ++ "/chat/completions") else none
  | .stub .. => none

/-- The member an answer's text is read from: `choices[0].message.content` from a chat
endpoint, `response` from any other. -/
def answerAt : Backend → Json → Option Json
  | .openAiCompatible .., p =>
    (((p.get? "choices").bind Json.firstItem?).bind (·.get? "message")).bind (·.get? "content")
  | _, p => p.get? "response"

/-- The member a token count is read from: `usage.total_tokens` from a chat endpoint,
`eval_count` from any other. -/
def countAt : Backend → Json → Option Json
  | .openAiCompatible .., p => (p.get? "usage").bind (·.get? "total_tokens")
  | _, p => p.get? "eval_count"

/-- What a call that sent its request comes to, by how the network answered and whether
the call was cancelled. -/
inductive Classified (b : Backend) (secrets : List Text) :
    Option Fault → Reply → Except Fault Generation → Prop
  /-- A cancelled call fails with the reason it was cancelled for. -/
  | cancelled (reason : Fault) (reply : Reply) : Classified b secrets (some reason) reply (.error reason)
  /-- A request that got no answer is worth retrying, without a status. -/
  | unanswered (message : String) :
    Classified b secrets none (.failed message)
      (.error (.transientBackend b.name (Text.ofString (b.label ++ " request failed: " ++ message)) .null))
  /-- A 429 or a 5xx is worth retrying, with its status. -/
  | retryable {status : Nat} (body : Text) (h : status = 429 ∨ 500 ≤ status) :
    Classified b secrets none (.answered status body)
      (.error (.transientBackend b.name (refusal b.label status (Redact.scrub secrets (readBody body)))
        (Json.ofNat status)))
  /-- Any other status outside 2xx makes the backend unusable. -/
  | unusable {status : Nat} (body : Text) (hok : ¬(200 ≤ status ∧ status < 300))
    (h : ¬(status = 429 ∨ 500 ≤ status)) :
    Classified b secrets none (.answered status body)
      (.error (.providerUnavailable b.name (refusal b.label status (Redact.scrub secrets (readBody body)))))
  /-- A 2xx body that reads as JSON is answered from its members, whatever their shape. -/
  | answered {status : Nat} {body : Text} {payload : Json} {g : Generation}
    (hok : 200 ≤ status ∧ status < 300) (hp : Json.parse (readBody body).toString = some payload)
    (htext : g.text = textOr (b.answerAt payload)) (hname : g.provider = b.name)
    (hcount : g.tokenEstimate = (b.countAt payload).bind Json.num?) :
    Classified b secrets none (.answered status body) (.ok g)
  /-- A 2xx body that does not read as JSON is malformed. -/
  | malformed {status : Nat} {body : Text} (hok : 200 ≤ status ∧ status < 300)
    (hp : Json.parse (readBody body).toString = none) :
    Classified b secrets none (.answered status body) (.error .malformed)

/-! ### Reading an answer -/

theorem extract_text (b : Backend) (p : Json) : (b.extract p).text = textOr (b.answerAt p) := by
  cases b with
  | openAiCompatible n base key model maxTokens =>
    simp only [extract, answerAt]
    generalize p.get? "choices" = choices
    rcases choices with _ | ⟨_ | _ | _ | _ | ⟨_ | ⟨first, rest⟩⟩ | _⟩ <;> try rfl
    simp only [Option.bind_some, Json.firstItem?]
    generalize first.get? "message" = message
    rcases message with _ | ⟨_ | _ | _ | _ | _ | ms⟩ <;> try rfl
    simp only [Option.bind_some]
    generalize (Json.obj ms).get? "content" = content
    rcases content with _ | ⟨_ | _ | _ | _ | _ | _⟩ <;> rfl
  | ollama n base model =>
    simp only [extract, answerAt]
    generalize p.get? "response" = response
    rcases response with _ | ⟨_ | _ | _ | _ | _ | _⟩ <;> rfl
  | stub n answer =>
    simp only [extract, answerAt]
    generalize p.get? "response" = response
    rcases response with _ | ⟨_ | _ | _ | _ | _ | _⟩ <;> rfl

theorem extract_provider (b : Backend) (p : Json) : (b.extract p).provider = b.name := by
  cases b <;> rfl

theorem extract_tokenEstimate (b : Backend) (p : Json) :
    (b.extract p).tokenEstimate = (b.countAt p).bind Json.num? := by
  cases b with
  | openAiCompatible n base key model maxTokens =>
    simp only [extract, countAt]
    generalize p.get? "usage" = usage
    rcases usage with _ | ⟨_ | _ | _ | _ | _ | ms⟩ <;> rfl
  | ollama => rfl
  | stub => rfl

/-- A payload that is not an object has none of the members an answer is read from, so
reading it as the empty object changes nothing. -/
theorem extract_object (b : Backend) (p : Json) :
    b.extract (if p.isObject then p else .obj []) = b.extract p := by
  cases h : p.isObject
  · have hnone := Json.get?_of_isObject_eq_false h
    cases b <;> simp only [extract, hnone, Bool.false_eq_true, if_false] <;> rfl
  · rfl

/-! ### Replies -/

/-- The message as the code builds it: the detail is cut first, and tested for emptiness
after the cut, which leaves it empty exactly when it was. -/
theorem refusal_eq (label : String) (status : Nat) (detail : Text) :
    refusal label status detail =
      Text.ofString (label ++ " returned HTTP " ++ toString status) ++
        if (detail.take 300).units.isEmpty then Text.empty else Text.ofString ": " ++ detail.take 300 := by
  rcases detail with ⟨_ | ⟨u, us⟩⟩ <;> rfl

theorem request_of_postsTo {b : Backend} {url : String} (prompt : Option Json) (h : b.postsTo = some url) :
    ∃ r, b.request prompt = .ok (some r) ∧ r.url = url := by
  cases b with
  | stub n answer => simp [postsTo] at h
  | ollama n base model =>
    simp only [postsTo, Option.some.injEq] at h
    exact ⟨_, rfl, h⟩
  | openAiCompatible n base key model maxTokens =>
    cases hkey : key.truthy
    · simp [postsTo, hkey] at h
    · simp only [postsTo, hkey, if_true, Option.some.injEq] at h
      exact ⟨_, by simp [request, hkey]; rfl, h⟩

/-- A backend that posts sends the request it builds, once, and reads the reply to it (a
failure in place of it when the call is already cancelled). -/
theorem generate_of_request {b : Backend} {url : String} (hb : b.postsTo = some url) {r : Request}
    {prompt : Option Json} (h : b.request prompt = .ok (some r)) (secrets : List Text)
    (cancelled : Option Fault) (fetch : Request → Reply) :
    b.generate secrets prompt cancelled fetch =
      ([r], b.interpret secrets cancelled
        (cancelled.elim (fetch r) fun _ => .failed "This operation was aborted")) := by
  cases b with
  | stub n answer => simp [postsTo] at hb
  | ollama =>
    simp only [generate, h]
    cases cancelled <;> rfl
  | openAiCompatible =>
    simp only [generate, h]
    cases cancelled <;> rfl

/-- Every reply, cancelled or not, comes to what its row says. -/
theorem classified_interpret (b : Backend) (secrets : List Text) (cancelled : Option Fault)
    (reply : Reply) :
    Classified b secrets cancelled reply
      (b.interpret secrets cancelled
        (cancelled.elim reply fun _ => .failed "This operation was aborted")) := by
  cases cancelled with
  | some reason => exact .cancelled reason reply
  | none =>
    show Classified b secrets none reply (b.interpret secrets none reply)
    cases reply with
    | failed message => exact .unanswered message
    | answered status body =>
      by_cases hok : 200 ≤ status ∧ status < 300
      · have hok' : (200 ≤ status && status < 300) = true := by simpa using hok
        cases hp : Json.parse (readBody body).toString with
        | none =>
          simp only [interpret, hok', if_true, hp]
          exact .malformed hok hp
        | some payload =>
          simp only [interpret, hok', if_true, hp, extract_object]
          exact .answered hok hp (extract_text b payload) (extract_provider b payload)
            (extract_tokenEstimate b payload)
      · have hok' : (200 ≤ status && status < 300) = false := by simpa using hok
        simp only [interpret, hok', Bool.false_eq_true, if_false]
        rw [← refusal_eq]
        by_cases hretry : status = 429 ∨ 500 ≤ status
        · have hr : (status == 429 || decide (500 ≤ status)) = true := by
            rcases hretry with h | h <;> simp [h]
          rw [if_pos hr]
          exact .retryable body hretry
        · have hr : (status == 429 || decide (500 ≤ status)) = false := by
            simp only [not_or] at hretry
            simp [hretry.1]
            omega
          rw [if_neg (by simp [hr])]
          exact .unusable body hok hretry

/-- What a call sends and comes to. A chat endpoint without a key refuses, for every
network, without sending anything. A backend that posts sends exactly one request, to the
address `postsTo` gives (its base address without trailing slashes, then its path), and
the call comes to what `Classified` says of the network's answer to that request: the
cancelling reason when cancelled; worth retrying without a status when unanswered; worth
retrying with the status exactly for 429 and 5xx, and unusable for any other status
outside 2xx, with the backend, the status and the first 300 units of the cleaned body in
the message; and for a 2xx body that reads as JSON, its text member or the empty text. -/
theorem calls_are_classified (b : Backend) (secrets : List Text) (prompt : Option Json)
    (cancelled : Option Fault) (fetch : Request → Reply) :
    (∀ n base key model maxTokens, b = .openAiCompatible n base key model maxTokens →
      key.truthy = false →
        b.generate secrets prompt cancelled fetch =
          ([], .error (.providerUnavailable b.name
            (Text.ofString (b.label ++ " has no API key configured"))))) ∧
    (∀ url, b.postsTo = some url →
      ∃ r, r.url = url ∧ (b.generate secrets prompt cancelled fetch).1 = [r] ∧
        Classified b secrets cancelled (fetch r) (b.generate secrets prompt cancelled fetch).2) ∧
    (∀ base : String, (∃ k, (trimSlashes base).toList ++ List.replicate k '/' = base.toList) ∧
      (trimSlashes base).toList.getLast? ≠ some '/') := by
  refine ⟨?_, ?_, trimSlashes_spec⟩
  · rintro n base key model maxTokens rfl hkey
    simp [generate, request, hkey, name, label]
  · intro url hurl
    obtain ⟨r, hr, hrurl⟩ := request_of_postsTo prompt hurl
    rw [generate_of_request hurl hr secrets cancelled fetch]
    exact ⟨r, hrurl, rfl, classified_interpret b secrets cancelled (fetch r)⟩

/-- A chat endpoint built without a key refuses without sending; built with a key, at an
address with a trailing slash, it sends one request and a 429 answer is worth retrying. -/
theorem keyless_chat_refuses_keyed_chat_retries :
    ((Json.ofString "").truthy = false ∧
      (Backend.openAiCompatible (Json.ofString "cloud") "https://llm.example.test/v1/"
          (Json.ofString "") none (.num 1024)).generate [] none none
          (fun _ => .answered 429 (Text.ofString "busy")) =
        ([], .error (.providerUnavailable
          (Backend.openAiCompatible (Json.ofString "cloud") "https://llm.example.test/v1/"
            (Json.ofString "") none (.num 1024)).name
          (Text.ofString ((Backend.openAiCompatible (Json.ofString "cloud")
            "https://llm.example.test/v1/" (Json.ofString "") none (.num 1024)).label ++
              " has no API key configured"))))) ∧
    ((Backend.openAiCompatible (Json.ofString "cloud") "https://llm.example.test/v1/"
        (Json.ofString "test-secret") none (.num 1024)).postsTo =
        some "https://llm.example.test/v1/chat/completions" ∧
      ∃ r : Request, r.url = "https://llm.example.test/v1/chat/completions" ∧
        ((Backend.openAiCompatible (Json.ofString "cloud") "https://llm.example.test/v1/"
          (Json.ofString "test-secret") none (.num 1024)).generate [] none none
          (fun _ => .answered 429 (Text.ofString "busy"))).1 = [r] ∧
        Classified (Backend.openAiCompatible (Json.ofString "cloud") "https://llm.example.test/v1/"
            (Json.ofString "test-secret") none (.num 1024)) [] none (.answered 429 (Text.ofString "busy"))
          ((Backend.openAiCompatible (Json.ofString "cloud") "https://llm.example.test/v1/"
            (Json.ofString "test-secret") none (.num 1024)).generate [] none none
            (fun _ => .answered 429 (Text.ofString "busy"))).2) := by
  have hkey : (Json.ofString "").truthy = false := by decide
  have hurl : (Backend.openAiCompatible (Json.ofString "cloud") "https://llm.example.test/v1/"
      (Json.ofString "test-secret") none (.num 1024)).postsTo =
      some "https://llm.example.test/v1/chat/completions" := by decide
  exact ⟨⟨hkey, (calls_are_classified _ [] none none _).1 _ _ _ _ _ rfl hkey⟩,
    ⟨hurl, (calls_are_classified _ [] none none _).2.1 _ hurl⟩⟩

/-! ### Every fault of a call has a text -/

theorem request_textful (b : Backend) (prompt : Option Json) : Fault.textful (b.request prompt) = true := by
  unfold request
  split
  · rfl
  · rfl
  · split <;> rfl

theorem stubGeneration_textful (n answer : Json) : Fault.textful (stubGeneration n answer) = true := by
  unfold stubGeneration
  split
  · rfl
  · split <;> rfl

theorem interpret_textful (b : Backend) (secrets : List Text) {cancelled : Option Fault}
    (hc : ∀ f ∈ cancelled, f.hasText = true) (reply : Reply) :
    Fault.textful (b.interpret secrets cancelled reply) = true := by
  cases reply with
  | failed message =>
    cases cancelled with
    | none => rfl
    | some reason => exact hc reason rfl
  | answered status body =>
    unfold interpret
    dsimp only
    split
    · split <;> rfl
    · split <;> rfl

/-- **A backend call fails with a text.** Whatever the network does, a call that fails
fails with a fault that has a text, as long as the reason it may have been cancelled
for has one. -/
theorem generate_textful (b : Backend) (secrets : List Text) (prompt : Option Json) {cancelled : Option Fault}
    (hc : ∀ f ∈ cancelled, f.hasText = true) (fetch : Request → Reply) :
    Fault.textful (b.generate secrets prompt cancelled fetch).2 = true := by
  unfold generate
  split
  · cases cancelled with
    | none => exact stubGeneration_textful _ _
    | some reason => exact hc reason rfl
  · have hreq := request_textful b prompt
    split
    · next f hf =>
      rw [hf] at hreq
      exact hreq
    · rfl
    · exact interpret_textful b secrets hc _

end Backend

end Backend

end LaneGate
