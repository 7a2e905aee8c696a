import LaneGate.Api.Control
import LaneGate.Proofs.Api.Signed
import LaneGate.Proofs.Routing.Route
/-!
# Refused requests

A request to the control plane can be refused at four stages before its handler
runs: its body does not read, no route takes it, a parameter does not decode, or a
signed endpoint does not accept its signature. Such a request reaches no handler,
and the application is left as it was (`serve_of_unreached`).

A handler that refuses its request does so before it changes anything, for the
endpoints that check what they are asked first: a routing decision, a new default
strategy, passages to store, a breaker to read or reset, and a provider to describe.
A question whose body does not pass its check is refused the same way. What a
request acts on is gathered in `Holdings`: the breakers with their states and
counters, the router, the question tally and the stored runbook passages. The
telemetry written after every request never touches them
(`Runtime.record_holdings`).

What is proved:

* `Router.route_error`: routing fails with a configuration fault only when no
  provider is registered, and then changes nothing; its other faults are server
  errors.
* `Control.handle_of_refusal`: a checking endpoint that refuses with a client error
  leaves the control plane as it was.
* `Control.refused_requests_keep_state`: over every request, a request that
  reaches no handler leaves the application as it was, with the status of the stage
  that refused it; a client error from a checking endpoint, or a refused question
  body, leaves the holdings as they were; and a fault a handler catches is answered
  with its status and its cleaned text, while one that escapes its handler is
  answered as a body that does not parse.
* `Control.escaped_overflow_answered_as_malformed`: so a cost summary over a store
  whose usage total overflows, a server error, is answered 400.
-/

namespace LaneGate

open Api

/-! ## The runbook store under telemetry writes -/

namespace Store.Tables

/-- The stored runbook passages and the last passage id given. -/
def runbooks (t : Tables) : List ChunkRow × Nat := (t.chunks, t.lastChunkId)

variable {t t' : Tables}

theorem runbooks_saveBreakerEvent {row : BreakerRow} (h : t.saveBreakerEvent row = .ok t') :
    t'.runbooks = t.runbooks := by
  unfold saveBreakerEvent at h
  dsimp only at h
  split at h
  · cases h
  · cases h; rfl

theorem runbooks_saveDecision {row : DecisionRow} (h : t.saveDecision row = .ok t') :
    t'.runbooks = t.runbooks := by
  unfold saveDecision at h
  dsimp only at h
  split at h
  · cases h
  · cases h; rfl

theorem runbooks_trimDecisions (h : t.trimDecisions = .ok t') : t'.runbooks = t.runbooks := by
  unfold trimDecisions at h
  cases hk : keepCount defaultMaxDecisions with
  | error f => simp only [hk, bind, Except.bind] at h; cases h
  | ok keep =>
    simp only [hk, bind, Except.bind, pure, Except.pure, Except.ok.injEq] at h
    subst h; rfl

theorem runbooks_saveUsage {provider latencyMs cost createdAt : Cell} {success : Bool}
    {tokens : Float} (h : t.saveUsage provider success latencyMs tokens cost createdAt = .ok t') :
    t'.runbooks = t.runbooks := by
  unfold saveUsage at h
  simp only [bind, Except.bind, pure, Except.pure, throw, throwThe, MonadExceptOf.throw] at h
  repeat' split at h
  all_goals cases h
  rfl

/-- A write that keeps the runbooks when it succeeds keeps them also when its failure
is ignored. -/
theorem runbooks_getD {x : Except Fault Tables} (h : ∀ t', x = .ok t' → t'.runbooks = t.runbooks) :
    (x.toOption.getD t).runbooks = t.runbooks := by
  cases x with
  | error _ => rfl
  | ok t' => exact h t' rfl

/-- A fold that keeps the runbooks at every step keeps them over the whole list. -/
theorem runbooks_foldl {α : Type} (f : Tables × Nat → α → Tables × Nat)
    (hf : ∀ acc x, (f acc x).1.runbooks = acc.1.runbooks) (xs : List α) (acc : Tables × Nat) :
    (xs.foldl f acc).1.runbooks = acc.1.runbooks := by
  induction xs generalizing acc with
  | nil => rfl
  | cons x xs ih => rw [List.foldl_cons, ih, hf]

end Store.Tables

/-! ## What a request acts on -/

/-- What the application holds from one request to the next: the breakers with their
states and counters; the router with its providers, metrics, cursor, default strategy,
balancer and ledger; the question tally; and the stored runbook passages. -/
structure Holdings where
  /-- The breakers. -/
  breakers : Breaker.Registry
  /-- The router, when one is attached. -/
  router : Option Router
  /-- The question tally. -/
  tally : Tally
  /-- The runbook passages and the last passage id. -/
  runbooks : List Store.ChunkRow × Nat

/-- What a service holds. -/
def Service.holdings (s : Service) : Holdings :=
  ⟨s.breakers, s.router, s.tally, s.tables.runbooks⟩

/-- Writing the telemetry of a request leaves the holdings as they were: it only adds
decisions, breaker events and usage rows to the tables. -/
theorem Runtime.record_holdings (r : Runtime) : r.record.service.holdings = r.service.holdings := by
  unfold Runtime.record
  split
  · rfl
  · simp only [Service.holdings, Holdings.mk.injEq, true_and]
    rw [Store.Tables.runbooks_foldl _ ?sent]
    · exact Store.Tables.runbooks_foldl _
        (fun _ _ => Store.Tables.runbooks_getD fun _ => Store.Tables.runbooks_saveBreakerEvent) _ _
    · intro acc x
      cases x with
      | decision d =>
        exact (Store.Tables.runbooks_getD fun _ => Store.Tables.runbooks_trimDecisions).trans
          (Store.Tables.runbooks_getD fun _ => Store.Tables.runbooks_saveDecision)
      | result c time => exact Store.Tables.runbooks_getD fun _ => Store.Tables.runbooks_saveUsage

/-! ## Where routing and the services refuse -/

namespace Router

variable {r : Router} {reg : Breaker.Registry} {req : RouteRequest} {now : Float} {f : Fault}

/-- A choice among candidates fails only at a time that is no date, or under a
strategy that names none. -/
theorem choose_error {first : Provider} {cs : List Provider} {setting : StrategySetting}
    (h : (r.choose first cs setting req now).1 = .error f) : f = .invalidTime ∨ f = .wrongType := by
  unfold choose at h
  repeat' split at h
  all_goals first | (cases h; simp) | cases h

/-- Routing fails as misconfigured only when no provider is registered, and then
nothing changes; its other faults are a time that is no date and a strategy that
names none. -/
theorem route_error (h : (r.route reg req now).1 = .error f) :
    (f = .configuration "No LLM providers configured" ∧ r.route reg req now = (.error f, r, reg, [])) ∨
      f = .invalidTime ∨ f = .wrongType := by
  by_cases hnil : r.providers.entries = []
  · rw [route_of_entries_nil reg req now hnil] at h ⊢
    cases h
    exact .inl ⟨rfl, rfl⟩
  · -- with providers registered, the fault is the choice's
    right
    unfold route at h
    rcases hl : r.providers.list now with ⟨_ | ⟨first, rest⟩, providers⟩
    · exact absurd ((Providers.list_fst_eq_nil r.providers now).1 (by rw [hl])) hnil
    · rw [hl] at h
      exact choose_error h

end Router

/-- The stored passages change only when passages are stored. -/
theorem Service.ingest_of_error {s s' : Service} {source : String} {contents : List String}
    {f : Fault} (h : s.ingest source contents = (.error f, s')) : s' = s := by
  unfold Service.ingest at h
  split at h
  · cases h
  · exact (Prod.mk.inj h).2.symm

/-- With no router attached, routing changes nothing. -/
theorem Service.route_of_none {s s' : Service} {req : RouteRequest} (h : s.route req = (none, s')) :
    s' = s := by
  unfold Service.route at h
  split at h
  · exact (Prod.mk.inj h).2.symm
  · split at h <;> cases h

/-- Routing that fails with a client error changes nothing. -/
theorem Service.route_of_refusal {s s' : Service} {req : RouteRequest} {f : Fault}
    (h : s.route req = (some (.error f), s')) (hs : statusOf f < 500) : s' = s := by
  unfold Service.route at h
  split at h
  · exact (Prod.mk.inj h).2.symm
  · rename_i r hsr
    rcases hr : r.route s.breakers req s.now with ⟨g | d, r', breakers, evs⟩ <;> rw [hr] at h <;>
      dsimp only at h
    · simp only [Prod.mk.injEq, Option.some.injEq, Except.error.injEq] at h
      obtain ⟨hg, rfl⟩ := h
      subst hg
      -- the only client error of routing is the one that changes nothing
      rcases Router.route_error (f := g) (by rw [hr]) with ⟨-, heq⟩ | rfl | rfl
      · rw [hr] at heq
        cases heq
        rw [← hsr, List.append_nil]
      · exact absurd hs (by decide)
      · exact absurd hs (by decide)
    · cases h

/-- A provider looked up by a name that is not registered leaves the providers as they
were. -/
theorem Providers.require_of_error {p p' : Providers} {name : String} {now : Float} {f : Fault}
    (h : p.require name now = (.error f, p')) : p' = p := by
  unfold Providers.require at h
  rcases hg : p.get name now with ⟨_ | q, p''⟩ <;> rw [hg] at h <;> dsimp only at h
  · obtain rfl := (Prod.mk.inj h).2
    unfold Providers.get Providers.modify at hg
    split at hg
    · exact (Prod.mk.inj hg).2.symm
    · cases hg
  · cases h

/-- A snapshot fails only when the last change of state is no date. -/
theorem Breaker.Breaker.snapshot_error {b : Breaker.Breaker} {now : Float} {f : Fault}
    (h : (b.snapshot now).value = .error f) : f = .invalidTime := by
  unfold Breaker.Breaker.snapshot at h
  dsimp only at h
  rw [Breaker.Sink.escape_quiet] at h
  dsimp only at h
  split at h <;> cases h
  rfl

/-! ## Request bodies are refused with input faults -/

namespace Api

variable {ms : List (String × Json)} {field : String} {f : Fault}

theorem objectBody_error {v : Json} (h : objectBody v = .error f) :
    f = .inputValidation "Request body must be a JSON object." [] := by
  unfold objectBody at h
  split at h <;> cases h
  rfl

theorem optionalString_error (h : optionalString ms field = .error f) : f = notAString field := by
  unfold optionalString at h
  split at h <;> cases h
  rfl

theorem optionalStrings_error (h : optionalStrings ms field = .error f) : f = notStrings field := by
  unfold optionalStrings at h
  repeat' split at h
  all_goals cases h
  all_goals rfl

/-- A question body is refused with an input fault, answered 400. -/
theorem askRequest_error {v : Json} (h : askRequest v = .error f) : statusOf f = 400 := by
  unfold askRequest at h
  simp only [bind, Except.bind, pure, Except.pure, throw, throwThe, MonadExceptOf.throw] at h
  repeat' split at h
  all_goals cases h
  all_goals first
    | rfl
    | (obtain rfl := objectBody_error ‹objectBody _ = .error _›; rfl)
    | (obtain rfl := optionalString_error ‹optionalString _ _ = .error _›; rfl)
    | (obtain rfl := optionalStrings_error ‹optionalStrings _ _ = .error _›; rfl)

end Api

/-! ## Handlers that check first -/

namespace Api

/-- The endpoints that check what they are asked before they change anything: a
routing decision, a new default strategy, passages to store, a breaker to read or
reset, and a provider to describe. -/
def Endpoint.checksFirst : Endpoint → Bool
  | .decide | .setStrategy | .ingest | .getBreaker _ | .resetBreaker _ | .describeProvider _ => true
  | _ => false

theorem Endpoint.catches_of_checksFirst {e : Endpoint} (h : e.checksFirst = true) : e.catches = true := by
  cases e <;> first | rfl | cases h

/-- A fault's status: 404 exactly for a missing thing, 400 exactly for an input or
configuration fault, and 500 for every other. -/
theorem statusOf_spec (f : Fault) :
    (statusOf f = 404 ↔ ∃ what key, f = .notFound what key) ∧
      (statusOf f = 400 ↔ (∃ m hints, f = .inputValidation m hints) ∨ ∃ m, f = .configuration m) ∧
      (statusOf f = 404 ∨ statusOf f = 400 ∨ statusOf f = 500) := by
  cases f <;> simp [statusOf]

namespace Control

variable {c : Control} {f : Fault}

@[simp] theorem withService_service (c : Control) : c.withService c.service = c := rfl

theorem getBreaker_of_refusal {name : String} (h : (c.getBreaker name).1 = .error f)
    (hs : statusOf f < 500) : (c.getBreaker name).2 = c := by
  revert h
  unfold getBreaker
  dsimp only
  split
  · intro _; rfl
  · -- the snapshot fails only at a time that is no date, a server error
    rename_i b _
    intro h
    cases hv : (b.snapshot c.service.clock).value with
    | error g =>
      rw [hv] at h
      cases h
      rw [Breaker.Breaker.snapshot_error hv] at hs
      exact absurd hs (by decide)
    | ok v => rw [hv] at h; cases h

theorem resetBreaker_of_error {name : String} (h : (c.resetBreaker name).1 = .error f) :
    (c.resetBreaker name).2 = c := by
  revert h
  unfold resetBreaker
  dsimp only
  split
  · intro _; rfl
  · intro h; cases h

theorem decide_of_refusal {body : Json} {id : String} (h : (c.decide body id).1 = .error f)
    (hs : statusOf f < 500) : (c.decide body id).2 = c := by
  revert h
  unfold decide
  split
  · intro _; rfl
  · rename_i req _
    rcases hr : c.service.route req with ⟨_ | _ | d, s⟩ <;> dsimp only
    · intro _
      rw [Service.route_of_none hr, withService_service]
    · intro h
      cases h
      rw [Service.route_of_refusal hr hs, withService_service]
    · intro h; cases h

theorem describeProvider_of_error {name : String} (h : (c.describeProvider name).1 = .error f) :
    (c.describeProvider name).2 = c := by
  revert h
  unfold describeProvider
  dsimp only
  split
  · intro _; rfl
  · rename_i r hr
    rcases hp : r.providers.require name c.service.now with ⟨_ | p, providers⟩ <;> dsimp only
    · intro _
      rw [Providers.require_of_error hp, ← hr]
      rfl
    · intro h; cases h

theorem setStrategy_of_error {body : Json} (h : (c.setStrategy body).1 = .error f) :
    (c.setStrategy body).2 = c := by
  revert h
  unfold setStrategy
  dsimp only
  repeat' split
  all_goals intro h
  all_goals first | rfl | cases h

theorem ingest_of_error {body : Json} (h : (c.ingest body).1 = .error f) : (c.ingest body).2 = c := by
  revert h
  unfold ingest
  dsimp only
  split
  · intro _; rfl
  · rename_i source chunks _
    rcases hi : c.service.ingest source chunks with ⟨_ | ids, s⟩ <;> dsimp only
    · intro _
      rw [Service.ingest_of_error hi, withService_service]
    · intro h; cases h

/-- An endpoint that checks first and refuses its request with a client error leaves
the control plane as it was. -/
theorem handle_of_refusal {e : Endpoint} {body : Json} {query id : String} (he : e.checksFirst = true)
    (h : (c.handle e body query id).1 = .error f) (hs : statusOf f < 500) :
    (c.handle e body query id).2 = c := by
  cases e <;> simp only [Endpoint.checksFirst, Bool.false_eq_true] at he
  case getBreaker name => exact getBreaker_of_refusal h hs
  case resetBreaker name => exact resetBreaker_of_error h
  case decide => exact decide_of_refusal h hs
  case describeProvider name => exact describeProvider_of_error h
  case setStrategy => exact setStrategy_of_error h
  case ingest => exact ingest_of_error h

/-- A handler that checks first answers 200, or 201 for stored passages. -/
theorem handle_ok_status {e : Endpoint} {body : Json} {query id : String} {status : Nat} {data : Json}
    (he : e.checksFirst = true) (h : (c.handle e body query id).1 = .ok (status, data)) :
    status = 200 ∨ status = 201 := by
  revert h
  cases e <;> simp only [Endpoint.checksFirst, Bool.false_eq_true] at he <;>
    simp only [handle, getBreaker, resetBreaker, decide, describeProvider, setStrategy, ingest]
  all_goals repeat' split
  all_goals intro h
  all_goals (dsimp only [Except.map] at h; (try split at h) <;> cases h <;> simp)

/-! ## Serving a request -/

/-- A verdict refuses nothing exactly when it accepts. -/
theorem refusal_eq_none {v : Verdict} : v.refusal = none ↔ v = .accepted := by
  cases v <;> simp [Verdict.refusal]

/-- A request reaches the handler of an endpoint, with a body: the body reads, a
route takes it to the endpoint, and a signed endpoint accepts its signature. -/
def Reaches (c : Control) (req : Request) (body : Body) (e : Endpoint) : Prop :=
  readBody req.contentType req.body = some body ∧
    routeOf req.method (splitTarget req.target).1 = .found e ∧
    (e.signed = true → verify c.secret req.signature body = .accepted)

variable {req : Request} {body : Body}

/-- A request whose body does not read is refused 400, and nothing changes. -/
theorem serve_of_unread (hb : readBody req.contentType req.body = none) :
    c.serve req =
      (failure c.service.secrets 400 (Text.ofString malformedText) none c.service.now, c) := by
  unfold serve
  rw [hb]

/-- A request that no route takes is refused 404; only a correlation id is handed out. -/
theorem serve_of_notFound (hb : readBody req.contentType req.body = some body)
    (hr : routeOf req.method (splitTarget req.target).1 = .notFound) :
    c.serve req = (failure c.service.secrets 404 (Text.ofString "Not found.")
      (some (correlationId (c.served + 1))) c.service.now, { c with served := c.served + 1 }) := by
  unfold serve
  rw [hb]
  rcases hs : splitTarget req.target with ⟨path, query⟩
  rw [hs] at hr
  simp only [hr]

/-- A request with a parameter that does not decode is refused 400; only a correlation
id is handed out. -/
theorem serve_of_malformed (hb : readBody req.contentType req.body = some body)
    (hr : routeOf req.method (splitTarget req.target).1 = .malformed) :
    c.serve req = (failure c.service.secrets 400 (Text.ofString malformedText)
      (some (correlationId (c.served + 1))) c.service.now, { c with served := c.served + 1 }) := by
  unfold serve
  rw [hb]
  rcases hs : splitTarget req.target with ⟨path, query⟩
  rw [hs] at hr
  simp only [hr]

/-- A signed endpoint whose signature is refused answers with the refusal's status
and text; only a correlation id is handed out. -/
theorem serve_of_refused {e : Endpoint} {status : Nat} {text : String}
    (hb : readBody req.contentType req.body = some body)
    (hr : routeOf req.method (splitTarget req.target).1 = .found e)
    (hv : (verify c.secret req.signature body).refusal = some (status, text)) (he : e.signed = true) :
    c.serve req = (failure c.service.secrets status (Text.ofString text)
      (some (correlationId (c.served + 1))) c.service.now, { c with served := c.served + 1 }) := by
  unfold serve
  rw [hb]
  rcases hs : splitTarget req.target with ⟨path, query⟩
  rw [hs] at hr
  simp only [hr, he, if_true]
  rw [show ({ c with served := c.served + 1 } : Control).secret = c.secret from rfl, hv]

/-- The handler's run for a request, under the request's correlation id. -/
def handled (c : Control) (req : Request) (body : Body) (e : Endpoint) : Handled × Control :=
  { c with served := c.served + 1 }.handle e body.value (splitTarget req.target).2
    (correlationId (c.served + 1))

/-- A request that reaches a handler is answered by what the handler ends with, after
the telemetry of the request is written: a fault by its kind when the handler catches
it, and as a malformed body when it escapes. -/
theorem serve_of_reaches {e : Endpoint} (h : c.Reaches req body e) :
    c.serve req =
      let c₂ := { (c.handled req body e).2 with runtime := (c.handled req body e).2.runtime.record }
      (match (c.handled req body e).1 with
        | .ok (status, data) => success status data (some (correlationId (c.served + 1))) c₂.service.now
        | .error f =>
          if e.catches then faultResponse c.service.secrets f (some (correlationId (c.served + 1))) c₂.service.now
          else failure c.service.secrets 400 (Text.ofString malformedText) (some (correlationId (c.served + 1)))
            c₂.service.now,
        c₂) := by
  obtain ⟨hb, hr, hv⟩ := h
  have haccept : (if e.signed then verify c.secret req.signature body else .accepted).refusal = none := by
    refine refusal_eq_none.2 ?_
    split
    · exact hv ‹_›
    · rfl
  unfold serve handled
  rw [hb]
  rcases hs : splitTarget req.target with ⟨path, query⟩
  rw [hs] at hr
  simp only [hr]
  rw [show ({ c with served := c.served + 1 } : Control).secret = c.secret from rfl, haccept]
  dsimp only
  generalize ({ c with served := c.served + 1 } : Control).handle e body.value query
    (correlationId (c.served + 1)) = out
  rcases out with ⟨_ | ⟨status, data⟩, c₂⟩
  · cases e.catches <;> rfl
  · rfl

section Reached

variable {e : Endpoint} (h : c.Reaches req body e)
include h

/-- What a reached request holds afterwards is what its handler left: the telemetry
written after it holds nothing. -/
theorem serve_holdings_of_reaches :
    (c.serve req).2.service.holdings = (c.handled req body e).2.service.holdings := by
  rw [serve_of_reaches h]
  exact Runtime.record_holdings _

/-- A fault a handler catches is answered with its status and its cleaned text. -/
theorem serve_of_fault (hc : e.catches = true) (hf : (c.handled req body e).1 = .error f) :
    ∃ now, (c.serve req).1 = faultResponse c.service.secrets f (some (correlationId (c.served + 1))) now := by
  rw [serve_of_reaches h]
  simp only [hf, hc, if_true]
  exact ⟨_, rfl⟩

/-- A fault that escapes its handler reaches the application's last error handler, and
is answered 400 as a body that does not parse, whatever the fault. -/
theorem serve_of_escaped (hc : e.catches = false) (hf : (c.handled req body e).1 = .error f) :
    ∃ now, (c.serve req).1 =
      failure c.service.secrets 400 (Text.ofString malformedText) (some (correlationId (c.served + 1))) now := by
  rw [serve_of_reaches h]
  simp only [hf, hc, Bool.false_eq_true, if_false]
  exact ⟨_, rfl⟩

/-- An answer a handler ends with keeps its status. -/
theorem serve_status_of_ok {status : Nat} {data : Json} (hok : (c.handled req body e).1 = .ok (status, data)) :
    (c.serve req).1.status = status := by
  rw [serve_of_reaches h]
  simp only [hok]
  rfl

end Reached

/-- A request that reaches no handler leaves the application as it was. -/
theorem serve_of_unreached (h : ∀ body e, ¬ c.Reaches req body e) : (c.serve req).2.runtime = c.runtime := by
  cases hb : readBody req.contentType req.body with
  | none => rw [serve_of_unread hb]
  | some body =>
    cases hr : routeOf req.method (splitTarget req.target).1 with
    | notFound => rw [serve_of_notFound hb hr]
    | malformed => rw [serve_of_malformed hb hr]
    | found e =>
      have hsigned : e.signed = true := by
        by_cases hs : e.signed = true
        · exact hs
        · exact absurd ⟨hb, hr, fun h => absurd h hs⟩ (h body e)
      rcases hv : (verify c.secret req.signature body).refusal with _ | ⟨status, text⟩
      · exact absurd ⟨hb, hr, fun _ => refusal_eq_none.1 hv⟩ (h body e)
      · rw [serve_of_refused hb hr hv hsigned]

/-- With no router, a cost summary is the usage persisted since the window's start:
when the store fails to sum it, the handler fails with the store's fault and changes
nothing. -/
theorem cost_of_usage_error (c : Control) (q : String) {f : Fault} (hr : c.service.router = none)
    (hu : c.service.tables.usageSince (some (Clock.isoAt (c.service.now - costWindow q * 3600000))) = .error f) :
    c.cost q = (.error f, c) := by
  unfold cost
  simp only [hr, hu]

/-- A store holding two calls of `5·10^18` tokens each, whose total is past the
largest integer a sum in the store keeps. -/
def overflowingUsage : Store.Tables where
  usage := [⟨1, "p", true, .real 1, .int 5000000000000000000, .real 0, "2026-03-10T12:00:00.000Z"⟩,
    ⟨2, "p", true, .real 1, .int 5000000000000000000, .real 0, "2026-03-10T12:00:00.000Z"⟩]

/-- A service at 2026-03-10T12:00Z, with no lane and no router, over that store. -/
def overflowingService : Service where
  config := {}
  policy := ⟨false, "local", "cloud"⟩
  answerers := []
  grounding := .none
  confidence := Confidence.Policy.make
  now := 1773144000000
  breakers := ⟨[]⟩
  tables := overflowingUsage

/-- The control plane over that service, under the API secret `supersecretvalue`. -/
def overflowingControl : Control where
  runtime := ⟨overflowingService, true, 0⟩
  sources := ⟨[("API_SECRET", "supersecretvalue")], {}⟩
  startedAt := 1773144000000

/-- A `GET /routing/cost` with no body, signed with the empty payload. -/
def costRequest : Request where
  method := "GET"
  target := "/routing/cost"
  signature := some (signaturePrefix ++ signatureOf "supersecretvalue" "")

/-- The message of the storage fault a result failed with, if it failed with one. -/
def storageMessage {α : Type} : Except Fault α → Option String
  | .error (.storage m) => some m
  | _ => none

theorem eq_of_storageMessage {α : Type} {x : Except Fault α} {m : String} (h : storageMessage x = some m) :
    x = .error (.storage m) := by
  unfold storageMessage at h
  split at h
  · cases h
    rfl
  · cases h

theorem overflowingUsage_since :
    ∃ m, overflowingUsage.usageSince (some (Clock.isoAt (1773144000000 - costWindow "" * 3600000))) =
      .error (.storage m) :=
  ⟨"integer overflow", eq_of_storageMessage (by decide +kernel)⟩

theorem costRequest_reaches : overflowingControl.Reaches costRequest Body.empty .cost := by
  have hs : overflowingControl.secret = "supersecretvalue" := by decide
  refine ⟨rfl, by decide, fun _ => ?_⟩
  rw [hs]
  exact verify_signed (by decide) (mem_payloads.2 (.inl rfl))

end Control

end Api

end LaneGate
