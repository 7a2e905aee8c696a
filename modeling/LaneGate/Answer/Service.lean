import LaneGate.Answer.Confidence
import LaneGate.Answer.Lane
import LaneGate.Answer.Model
import LaneGate.Answer.Prompt
import LaneGate.Breaker.Registry
import LaneGate.Call.Retry
import LaneGate.Config.Settings
import LaneGate.Grounding.Runbooks
import LaneGate.Routing.Router
/-!
# Answering questions

The service answers a question in these steps.

1. The question is trimmed; an empty one is refused as invalid input.
2. The lane policy picks a lane from the source hint. A lane with no answerer is a
   configuration fault.
3. The lane's model is called through the lane's breaker, with a timeout per
   attempt, retries with backoff, and an optional deadline over the whole question.
   An open breaker or a configuration fault ends the retries at once. The grounded
   lane retrieves passages and builds a cited prompt first; the cloud lane sends the
   question alone.
4. A model answer passes the confidence gate or is replaced by the fallback: the
   passages the grounding source retrieves, listed under a fixed header. A call that
   failed also ends in the fallback; its outcome is `circuit_open` when the breaker
   refused it and `error` otherwise.
5. The outcome and the time taken on the service clock are tallied.

When a router is attached, every attempt is reported to it: a start for the
decision's provider, if registered, then the result with its latency, tokens and
cost. A report of success that the router fails to record (a clock reading that is no
date) fails the attempt, which is then reported as a failure too. The breaker events, the prompts heard, the requests sent and the router
results are kept in order, for the caller to read.

Only invalid input and configuration faults leave `ask`; every failure of a model
becomes a fallback answer.
-/

namespace LaneGate

open Store

/-- How the grounded lane retrieves passages and builds its prompt. -/
structure Retrieval where
  /-- How many recent passages are scored. -/
  scanLimit : Float := Runbooks.defaultScanLimit
  /-- The longest prompt, in UTF-16 units. -/
  maxPromptChars : Float := Prompt.defaultMaxChars

/-- The grounded prompt of a question over the stored passages: the best `topK` of
the recent ones, cited (none when the scan limit is refused). -/
def Retrieval.ground (r : Retrieval) (t : Tables) (question : String) (topK : Float) :
    Prompt.Grounded :=
  let found := (Runbooks.retrieve t r.scanLimit question topK).toOption.getD []
  Prompt.build r.maxPromptChars question
    (found.map fun (c, _) => ⟨Json.ofNat c.id, Json.ofString c.source, c.content⟩)

/-- How a lane answers: its model and, for the grounded lane, how it retrieves. -/
structure Answerer where
  /-- The lane it serves. -/
  lane : Lane
  /-- The model it asks. -/
  model : Model
  /-- Passages retrieved per question by the grounded lane. -/
  topK : Primitive := .num 5
  /-- How the grounded lane retrieves. -/
  retrieval : Retrieval := {}

/-- Where a fallback answer finds its passages. -/
inductive Grounding where
  /-- Nowhere: the fallback cites nothing. -/
  | none
  /-- A source whose retrieval fails; the fallback cites nothing. -/
  | failing
  /-- The grounded lane's own retrieval. -/
  | onDevice
  /-- A retrieval over the store with the default settings. -/
  | store

/-- One answer, from a model or from the fallback. -/
structure Attempt where
  /-- The answer text. -/
  answer : Text
  /-- The passages it cites. -/
  citations : List Prompt.Citation
  /-- Who answered. -/
  provider : String
  /-- The tokens the model reported. -/
  tokenEstimate : Option Float
  /-- The length of the prompt, in UTF-16 units. -/
  charEstimate : Nat

/-- How a question ended. -/
inductive Outcome where
  /-- A trusted model answer. -/
  | ok
  /-- A model answer that failed the confidence gate. -/
  | fallback
  /-- A model call that failed. -/
  | error
  /-- A model call the breaker refused. -/
  | circuitOpen
  deriving DecidableEq, Repr

/-- The name of an outcome. -/
def Outcome.name : Outcome → String
  | .ok => "ok"
  | .fallback => "fallback"
  | .error => "error"
  | .circuitOpen => "circuit_open"

/-- Counts of the questions answered. -/
structure Tally where
  /-- Questions answered. -/
  totalRequests : Nat := 0
  /-- By outcome: trusted answers. -/
  ok : Nat := 0
  /-- By outcome: distrusted answers. -/
  fallback : Nat := 0
  /-- By outcome: failed calls. -/
  error : Nat := 0
  /-- By outcome: refused calls. -/
  circuitOpen : Nat := 0
  /-- By lane: the grounded lane. -/
  onDevice : Nat := 0
  /-- By lane: the cloud lane. -/
  cloud : Nat := 0
  /-- The running mean of the latencies, in ms. -/
  avgLatencyMs : Float := 0

/-- The tally after one more question. -/
def Tally.record (t : Tally) (lane : Lane) (o : Outcome) (latencyMs : Float) : Tally :=
  let n := t.totalRequests + 1
  let t := match o with
    | .ok => { t with ok := t.ok + 1 }
    | .fallback => { t with fallback := t.fallback + 1 }
    | .error => { t with error := t.error + 1 }
    | .circuitOpen => { t with circuitOpen := t.circuitOpen + 1 }
  let t := match lane with
    | .onDeviceRag => { t with onDevice := t.onDevice + 1 }
    | .cloudDirect => { t with cloud := t.cloud + 1 }
  { t with totalRequests := n,
           avgLatencyMs := (t.avgLatencyMs * (n - 1).toFloat + latencyMs) / n.toFloat }

/-- The answer to a question. -/
structure Answer where
  /-- The answer text. -/
  text : Text
  /-- The passages it cites. -/
  citations : List Prompt.Citation
  /-- The lane chosen. -/
  lane : Lane
  /-- Who answered: the model's name, or the fallback. -/
  provider : String
  /-- Whether the fallback answered. -/
  fallbackUsed : Bool
  /-- The time taken on the service clock, in ms. -/
  latencyMs : Float
  /-- The tokens the model reported. -/
  tokenEstimate : Option Float
  /-- The length of the prompt, in UTF-16 units. -/
  charEstimate : Nat

/-- What the router tells its telemetry sink. -/
inductive Sent where
  /-- A routing decision. -/
  | decision (d : Decision)
  /-- A finished call, with when it was reported. -/
  | result (c : CallReport) (time : Float)

/-- The answering service. -/
structure Service where
  /-- Its settings. -/
  config : PipelineConfig
  /-- How lanes are chosen. -/
  policy : LanePolicy String
  /-- The lanes' answerers, in lane order. -/
  answerers : List Answerer
  /-- Where fallback answers find passages. -/
  grounding : Grounding
  /-- The confidence gate. -/
  confidence : Confidence.Policy
  /-- Values kept out of reported faults. -/
  secrets : List Text := []
  /-- The service clock, a time value in ms. -/
  now : Float
  /-- The breakers, shared with the router. -/
  breakers : Breaker.Registry
  /-- The router, when attached. -/
  router : Option Router := none
  /-- The store of passages and telemetry. -/
  tables : Tables
  /-- How many prepared replies each lane's model has given. -/
  used : List (Lane × Nat) := []
  /-- The questions tallied. -/
  tally : Tally := {}
  /-- Breaker events, oldest first. -/
  events : List Breaker.Event := []
  /-- Prompts heard by models that keep them, in order. -/
  heard : List Text := []
  /-- Requests sent over the network, in order. -/
  requests : List Backend.Request := []
  /-- What the router sent its telemetry sink, in order. -/
  sent : List Sent := []

/-- The fault of an empty question. -/
def emptyQuestion : Fault :=
  .inputValidation "question must not be empty" ["Send a non-empty \"question\" string."]

/-- The answerer's name of the fallback. -/
def fallbackProvider : String := "fallback"

/-- Whether a failed attempt may be retried: not when the breaker refused it or the
setup is wrong. -/
def retryable : Fault → Bool
  | .circuitOpen .. => false
  | .configuration _ => false
  | _ => true

namespace Service

/-- The clock as a breaker reads it: milliseconds as a double. -/
def clock (s : Service) : Float := s.now

/-- The settings of a lane breaker: the pipeline's thresholds as given. -/
def laneBreakerConfig (c : PipelineConfig) (name : Key) : Except Fault Breaker.Config :=
  Breaker.Config.make name.value c.failureThreshold.given c.successThreshold.given
    c.recoveryTimeoutMs.given

/-- The deadline over a whole question, when one is set and not at most zero. -/
def deadlineOf (c : PipelineConfig) : Option Deadline :=
  match c.requestDeadlineMs with
  | .null => none
  | ms => if ms.toNumber ≤ 0 then none
          else some ⟨timerDelay ms.toNumber, .callTimeout (Json.ofString "request") ms.toJson⟩

/-- The retry plan of a lane call: the retries allowed after the first attempt, and
the backoff pauses (their defaults where not given). -/
def retryPlanOf (c : PipelineConfig) : RetryPlan :=
  ⟨attemptsAllowed (Primitive.add c.maxRetries (.num 1)).toNumber, c.backoffBaseMs.numberOr 250,
    c.backoffMaxMs.numberOr 4000⟩

/-- A service over its parts, with a breaker for each lane that has an answerer,
made in lane order (a bad breaker setting is a configuration fault). -/
def create (config : PipelineConfig) (policy : LanePolicy String) (answerers : List Answerer)
    (grounding : Grounding) (confidence : Confidence.Policy) (router : Option Router)
    (tables : Tables) (breakers : Breaker.Registry) (secrets : List Text) (now : Float) :
    Except Fault Service := do
  let answerers := Lane.all.filterMap fun l => answerers.find? (·.lane == l)
  let breakers ← answerers.foldlM
    (fun (reg : Breaker.Registry) a => do
      let (_, reg) ← reg.obtain (Key.ofString a.lane.name) (laneBreakerConfig config) now
      pure reg)
    breakers
  pure { config, policy, answerers, grounding, confidence, secrets, now, breakers, router, tables }

/-- The answerer of a lane. -/
def answererFor (s : Service) (lane : Lane) : Option Answerer :=
  s.answerers.find? (·.lane == lane)

/-- How many prepared replies a lane's model has given. -/
def usedBy (s : Service) (lane : Lane) : Nat :=
  ((s.used.find? (·.1 == lane)).map (·.2)).getD 0

/-- The service with one more reply given by a lane's model. -/
def useOne (s : Service) (lane : Lane) : Service :=
  let n := s.usedBy lane + 1
  { s with used := (lane, n) :: s.used.filter (·.1 != lane) }

/-- The service clock moved on. -/
def advance (s : Service) (ms : Float) : Service := { s with now := s.now + ms }

/-- Stores the passages of a runbook, dated now, returning their ids. -/
def ingest (s : Service) (source : String) (contents : List String) :
    Except Fault (List Nat) × Service :=
  match Runbooks.ingest s.tables source contents (Clock.isoAt s.now) with
  | .ok (ids, tables) => (.ok ids, { s with tables })
  | .error f => (.error f, s)

/-- Routes a request with the attached router (none attached routes nothing); the
decision is sent to the telemetry sink. -/
def route (s : Service) (req : RouteRequest) : Option (Except Fault Decision) × Service :=
  match s.router with
  | none => (none, s)
  | some r =>
    match r.route s.breakers req s.now with
    | (.ok d, r, breakers, evs) =>
      (some (.ok d), { s with router := some r, breakers, events := s.events ++ evs,
                              sent := s.sent ++ [.decision d] })
    | (.error f, r, breakers, evs) =>
      (some (.error f), { s with router := some r, breakers, events := s.events ++ evs })

/-- The router's entry for a provider, marked as started when it is registered. -/
def routedStart (s : Service) (provider : String) : Option Provider × Service :=
  match s.router with
  | none => (none, s)
  | some r =>
    let (p, providers) := r.providers.get provider s.now
    let r := { r with providers }
    match p with
    | none => (none, { s with router := some r })
    | some p => (some p, { s with router := some (r.recordStart p.name s.now) })

/-- Sends one report to the router; the telemetry sink hears of it only when the
router records it in full. -/
def sendReport (r : Router) (sent : List Sent) (c : CallReport) (now : Float) :
    Except Fault Unit × Router × List Sent :=
  match r.recordResult c now with
  | (.ok (), r) => (.ok (), r, sent ++ [.result c now])
  | (.error f, r) => (.error f, r, sent)

/-- Reports a failed attempt: the attempt fails with its own error, or with the
report's when the report fails. -/
def reportFailure (r : Router) (sent : List Sent) (c : CallReport) (now : Float) (f : Fault) :
    Except Fault Attempt × Router × List Sent :=
  match sendReport r sent c now with
  | (.ok (), r, sent) => (.error f, r, sent)
  | (.error g, r, sent) => (.error g, r, sent)

/-- The report of a finished attempt on a provider: its latency and, on success, the
tokens the model reported (none counting as zero) and what they cost at the given
price per thousand; a failure reports no tokens and no cost. -/
def attemptReport (p : Provider) (latency per1k : Float) : Except Fault Attempt → CallReport
  | .ok a =>
    let tokens := a.tokenEstimate.getD 0
    ⟨Key.ofString p.name, some (.bool true), some (.num latency), .num tokens, .num (tokens / 1000 * per1k)⟩
  | .error _ => ⟨Key.ofString p.name, some (.bool false), some (.num latency), .num 0, .num 0⟩

/-- Reports a finished attempt to the router, with its latency since `startedAt`. A
report of success that fails turns the attempt into a failure, which is reported in
turn. -/
def routedEnd (s : Service) (routed : Option Provider) (result : Except Fault Attempt)
    (startedAt : Float) : Except Fault Attempt × Service :=
  match s.router, routed with
  | some r, some p =>
    let report := attemptReport p (s.now - startedAt) (r.ledger.costPer1k p)
    let (result, r, sent) : Except Fault Attempt × Router × List Sent :=
      match result with
      | .ok a =>
        match sendReport r s.sent (report (.ok a)) s.now with
        | (.ok (), r, sent) => (.ok a, r, sent)
        | (.error f, r, sent) => reportFailure r sent (report (.error f)) s.now f
      | .error f => reportFailure r s.sent (report (.error f)) s.now f
    (result, { s with router := some r, sent })
  | _, _ => (result, s)

/-- The prompt a lane sends for a question, with its citations and length. -/
def promptFor (s : Service) (a : Answerer) (question : String) :
    Text × List Prompt.Citation × Nat :=
  match a.lane with
  | .onDeviceRag =>
    let g := a.retrieval.ground s.tables question a.topK.toNumber
    (g.prompt, g.citations, g.charEstimate)
  | .cloudDirect =>
    let p := Text.ofString (Prompt.cloud question)
    (p, [], p.length)

/-- One call of a lane's model, raced against the timeout and the deadline; the
waiting clock moves by the time the race took, and stands at the deadline when the
deadline cancelled the call. -/
def answerWith (s : Service) (a : Answerer) (question : String) (deadline : Option Deadline)
    (elapsed : Float) : Except Fault Attempt × Service × Float :=
  let (prompt, citations, chars) := s.promptFor a question
  let drawn := a.model.ask s.secrets (s.usedBy a.lane) prompt
  let s := { s.useOne a.lane with
    now := s.now + drawn.advanceMs
    heard := s.heard ++ drawn.heard.toList
    requests := s.requests ++ drawn.requests }
  let (ending, took) := race drawn.settling s.config.timeoutMs.toNumber (Deadline.left deadline elapsed)
  let elapsed := elapsed + took
  match ending with
  | .settled =>
    (drawn.result.map fun g =>
      ⟨Text.ofString (Json.shown g.text), citations, Json.shown g.provider, g.tokenEstimate, chars⟩,
      s, elapsed)
  | .timedOut => (.error (.callTimeout (Json.ofString (a.lane.name ++ " answer")) s.config.timeoutMs.toJson), s,
    elapsed)
  | .cancelled => (.error ((deadline.map (·.reason)).getD .aborted), s, (deadline.map (·.firesAt)).getD elapsed)

/-- One call of a lane's model within the deadline: a deadline that has already fired
fails it before the model is asked. -/
def callWithin (s : Service) (a : Answerer) (question : String) (deadline : Option Deadline)
    (elapsed : Float) : Except Fault Attempt × Service × Float :=
  match deadline with
  | some dl => if dl.firesAt ≤ elapsed then (.error dl.reason, s, elapsed)
               else s.answerWith a question deadline elapsed
  | none => s.answerWith a question deadline elapsed

/-- One timed attempt, reported to the router: its start before the model is asked,
its end once the call has settled. -/
def timedAttempt (s : Service) (d : LaneDecision String) (a : Answerer) (question : String)
    (deadline : Option Deadline) (elapsed : Float) : Except Fault Attempt × Service × Float :=
  let (routed, s) := s.routedStart d.provider
  let startedAt := s.now
  let (result, s, elapsed) := s.callWithin a question deadline elapsed
  let (result, s) := s.routedEnd routed result startedAt
  (result, s, elapsed)

/-- One attempt through the lane's breaker: refused when it is open, and recorded
as a success or failure otherwise. -/
def guarded (s : Service) (d : LaneDecision String) (a : Answerer) (question : String)
    (deadline : Option Deadline) (elapsed : Float) : Except Fault Attempt × Service × Float :=
  match s.breakers.find? (Key.ofString d.lane.name) with
  | none => (.error (.notFound (Json.ofString "Circuit breaker") (Key.ofString d.lane.name)), s, elapsed)
  | some b =>
    let st : Breaker.Step (Except Fault Unit) := b.allow s.clock
    let s := { s with breakers := s.breakers.update st.breaker, events := s.events ++ st.events }
    match st.value with
    | .error f => (.error f, s, elapsed)
    | .ok () =>
      let (result, s, elapsed) := s.timedAttempt d a question deadline elapsed
      let recorded := st.breaker.complete s.clock result
      let result := match recorded.value with
        | .error f => .error f
        | .ok () => result
      (result, { s with breakers := s.breakers.update recorded.breaker, events := s.events ++ recorded.events },
        elapsed)

/-- What a lane call answers once its attempts are over: the model's attempt, or why
the call failed; a configuration fault is the outer error. -/
def laneResult (r : Retried Attempt) : Except Fault (Except Fault Attempt) :=
  match r.result with
  | .ok v => .ok (.ok v)
  | .error (some (.configuration m)) => .error (.configuration m)
  | .error (some (.circuitOpen b ms)) => .ok (.error (.circuitOpen b ms))
  | .error last => .ok (.error (.laneCallFailed r.attempts (last.getD .aborted)))

/-- Calls a lane with retries. The inner result is the model's attempt or why the
call failed; a configuration fault is the outer error. -/
def callLane (s : Service) (d : LaneDecision String) (a : Answerer) (question : String) :
    Except Fault (Except Fault Attempt) × Service :=
  match s.breakers.obtain (Key.ofString d.lane.name) (laneBreakerConfig s.config) s.clock with
  | .error f => (.error f, s)
  | .ok (_, breakers) =>
    let s := { s with breakers }
    let deadline := deadlineOf s.config
    let (r, s, _) := retry (retryPlanOf s.config) (fun f _ => some (retryable f)) deadline
      (fun _ s elapsed => s.guarded d a question deadline elapsed) s
    match r with
    | .error f => (.error f, s)
    | .ok r => (laneResult r, s)

/-- The grounded prompt the fallback cites, if its source gives one. -/
def fallbackGround (s : Service) (question : String) : Option Prompt.Grounded :=
  match s.grounding with
  | .none | .failing => none
  | .onDevice => (s.answererFor .onDeviceRag).map fun a =>
      a.retrieval.ground s.tables question s.config.topK.toNumber
  | .store => some (({} : Retrieval).ground s.tables question s.config.topK.toNumber)

/-- The fallback answer: the retrieved passages under the fixed header. -/
def fallback (s : Service) (question : String) : Attempt :=
  let g := s.fallbackGround question
  let citations := (g.map (·.citations)).getD []
  ⟨Prompt.fallbackAnswer citations, citations, fallbackProvider, none,
    (g.map (·.charEstimate)).getD 0⟩

/-- How a question ends once its lane was called, with the answer given: a model
answer that passes the confidence gate is trusted, one that does not is replaced by
the fallback, and a call that failed (refused by the breaker, or not) ends in the
fallback too. -/
def judge (s : Service) (question : String) (lane : Lane) : Except Fault Attempt → Outcome × Attempt
  | .ok m =>
    match s.confidence.evaluate m.answer.toString m.citations.length (some lane) with
    | some _ => (.fallback, s.fallback question)
    | none => (.ok, m)
  | .error (.circuitOpen ..) => (.circuitOpen, s.fallback question)
  | .error _ => (.error, s.fallback question)

/-- Answers a question with an optional source hint. -/
def ask (s : Service) (question : String) (hint : Option String) : Except Fault Answer × Service :=
  let question := Text.trim question
  if question.isEmpty then (.error emptyQuestion, s)
  else
    let startedAt := s.now
    let d := s.policy.decide hint
    match s.answererFor d.lane with
    | none => (.error (.configuration ("No answerer configured for lane '" ++ d.lane.name ++ "'")), s)
    | some a =>
      match s.callLane d a question with
      | (.error f, s) => (.error f, s)
      | (.ok called, s) =>
        let (outcome, attempt) := s.judge question d.lane called
        let latencyMs := Decimal.maxOf 0 (s.now - startedAt)
        let s := { s with tally := s.tally.record d.lane outcome latencyMs }
        (.ok ⟨attempt.answer, attempt.citations, d.lane, attempt.provider, outcome != .ok,
          latencyMs, attempt.tokenEstimate, attempt.charEstimate⟩, s)

end Service

end LaneGate
