import LaneGate.Proofs.Answer.Reports
import LaneGate.Proofs.Breaker.Registry
import LaneGate.Proofs.Backend.Outcomes
import LaneGate.Proofs.Call.Retries
/-!
# The attempts of a lane call

A question's lane is called through its breaker, with retries: each attempt asks the
breaker to let it through, and if it does, asks the lane's model (raced against the
timeout and the deadline) and records how the call ended on the breaker. Here each
step's effect on the service is pinned down, and the steps are put together into one
attempt, then into the retry loop's run (`Service.LaneRun`).

## What is proved

* `Service.answerWith_state`, `Service.timedAttempt_state`: what a model call may change
  (the lane's count of replies, the clock, what the model heard and sent, the router
  and its telemetry) and so what it leaves alone.
* `Service.usedBy_guarded`: an attempt asks the model exactly when the lane's breaker
  lets it through (`Service.admits`), before the deadline.
* `Service.guarded_of_refused`: a refused attempt fails with the breaker's refusal.
* `Service.guarded_dated`: an attempt let through, ending at a date, has the model
  call's result, and that result is recorded on the lane's breaker.
* `Service.callLane_run`: a lane call ends as its attempts' run does.
* `Service.LaneRun.keeps`: over a run, every breaker stays, the parts no attempt
  changes stay (`Service.Alike`), and the model is asked once per attempt let through.
* `Service.LaneRun.dated`: at dates, every attempt let through has the model call's
  result, and the lane's breaker records it.
* `Service.LaneRun.retried`, `Service.LaneRun.ends`: every attempt but the last failed
  with a fault the loop retries, and the call ends as its last attempt did; so it
  rejects with a configuration fault exactly when an attempt ended with one
  (`Service.LaneRun.configuration_iff`).
-/

namespace LaneGate

/-- A model fails, if it does, with a fault that has a text: a prepared reply's own, or
a backend's. -/
theorem Model.ask_textful (m : Model) (secrets : List Text) (used : Nat) (prompt : Text) :
    Fault.textful (m.ask secrets used prompt).result = true := by
  unfold Model.ask
  split
  · split
    · rfl
    · next r _ => exact (Fault.textful_map _ r.result).trans r.textful
  · next b network =>
    have h := @Backend.Backend.generate_textful b secrets (some (.str prompt)) none
      (fun _ h => by cases h) (fun _ => network)
    rcases hg : b.generate secrets (some (.str prompt)) none (fun _ => network) with ⟨requests, result⟩
    rw [hg] at h
    exact h

namespace Service

/-- The deadline over a question fails with the timeout of the whole request. -/
theorem deadlineOf_textful (c : PipelineConfig) : ∀ dl ∈ deadlineOf c, dl.reason.hasText = true := by
  intro dl h
  rw [Option.mem_def] at h
  unfold deadlineOf at h
  split at h
  · cases h
  · split at h
    · cases h
    · cases h
      rfl

/-! ### What each step may change -/

/-- Two services alike in what no attempt changes: the settings, answerers, fallback
source, confidence gate, secrets, store and tally. -/
structure Alike (s s' : Service) : Prop where
  config : s'.config = s.config
  answerers : s'.answerers = s.answerers
  grounding : s'.grounding = s.grounding
  confidence : s'.confidence = s.confidence
  secrets : s'.secrets = s.secrets
  tables : s'.tables = s.tables
  tally : s'.tally = s.tally

theorem Alike.refl (s : Service) : Alike s s := ⟨rfl, rfl, rfl, rfl, rfl, rfl, rfl⟩

theorem Alike.trans {s₁ s₂ s₃ : Service} (h₁ : Alike s₁ s₂) (h₂ : Alike s₂ s₃) : Alike s₁ s₃ :=
  ⟨h₂.config.trans h₁.config, h₂.answerers.trans h₁.answerers, h₂.grounding.trans h₁.grounding,
    h₂.confidence.trans h₁.confidence, h₂.secrets.trans h₁.secrets, h₂.tables.trans h₁.tables,
    h₂.tally.trans h₁.tally⟩

@[simp] theorem usedBy_useOne (s : Service) (lane : Lane) :
    (s.useOne lane).usedBy lane = s.usedBy lane + 1 := by
  show ((((lane, s.usedBy lane + 1) :: s.used.filter (·.1 != lane)).find? (·.1 == lane)).map (·.2)).getD 0 = _
  rw [List.find?_cons_of_pos (p := fun x : Lane × Nat => x.1 == lane) (beq_self_eq_true lane)]
  rfl

/-- The model call counts one reply of the lane's model, moves the clock and adds what
the model heard and sent to the network; nothing else changes. -/
theorem answerWith_state (s : Service) (a : Answerer) (question : String)
    (deadline : Option Deadline) (elapsed : Float) :
    ∃ now heard requests,
      (s.answerWith a question deadline elapsed).2.1 = { s.useOne a.lane with now, heard, requests } := by
  unfold answerWith
  dsimp only
  split <;> exact ⟨_, _, _, rfl⟩

/-- The model call's result and the time it took read only the settings, secrets,
store and the lane's count of replies. -/
theorem answerWith_congr {s s' : Service} (h : Alike s s') (hu : s'.used = s.used) (a : Answerer)
    (question : String) (deadline : Option Deadline) (elapsed : Float) :
    (s'.answerWith a question deadline elapsed).1 = (s.answerWith a question deadline elapsed).1 ∧
      (s'.answerWith a question deadline elapsed).2.2 = (s.answerWith a question deadline elapsed).2.2 := by
  have hp : s'.promptFor a question = s.promptFor a question := by
    unfold promptFor
    rw [h.tables]
  have hn : s'.usedBy a.lane = s.usedBy a.lane := by
    unfold usedBy
    rw [hu]
  have hcfg : ∀ x : Service, (x.useOne a.lane).config = x.config := fun _ => rfl
  unfold answerWith
  rw [hp, hn, h.secrets]
  generalize s.promptFor a question = pc
  obtain ⟨prompt, citations, chars⟩ := pc
  dsimp only
  rw [hcfg, hcfg, h.config]
  generalize race (a.model.ask s.secrets (s.usedBy a.lane) prompt).settling s.config.timeoutMs.toNumber
    (Deadline.left deadline elapsed) = ended
  obtain ⟨ending, took⟩ := ended
  cases ending <;> exact ⟨rfl, rfl⟩

/-- Before the deadline, a call within it is the model call. -/
theorem callWithin_of_not_passed (s : Service) (a : Answerer) (question : String)
    {deadline : Option Deadline} {elapsed : Float} (hp : Deadline.passed deadline elapsed = false) :
    s.callWithin a question deadline elapsed = s.answerWith a question deadline elapsed := by
  unfold callWithin
  cases deadline with
  | none => rfl
  | some dl =>
    have hlt : ¬ dl.firesAt ≤ elapsed := by simpa [Deadline.passed] using hp
    dsimp only
    rw [if_neg hlt]

theorem routedStart_state (s : Service) (provider : String) :
    ∃ router, (s.routedStart provider).2 = { s with router } := by
  unfold routedStart
  split
  · exact ⟨_, rfl⟩
  · dsimp only
    split <;> exact ⟨_, rfl⟩

theorem routedEnd_state (s : Service) (routed : Option Provider) (result : Except Fault Attempt)
    (startedAt : Float) : ∃ router sent, (s.routedEnd routed result startedAt).2 = { s with router, sent } := by
  unfold routedEnd
  split
  · dsimp only
    split <;> exact ⟨_, _, rfl⟩
  · exact ⟨_, _, rfl⟩

/-- **A timed attempt's effect.** Before the deadline, it counts one reply of the lane's
model and may move the clock, add what the model heard and sent, and report to the
router; nothing else changes. -/
theorem timedAttempt_state (s : Service) (d : LaneDecision String) (a : Answerer) (question : String)
    {deadline : Option Deadline} {elapsed : Float} (hp : Deadline.passed deadline elapsed = false) :
    ∃ router sent now heard requests,
      (s.timedAttempt d a question deadline elapsed).2.1 =
        { s.useOne a.lane with router, sent, now, heard, requests } := by
  obtain ⟨r₁, h₁⟩ := routedStart_state s d.provider
  unfold timedAttempt
  rcases hstart : s.routedStart d.provider with ⟨routed, s₁⟩
  rw [hstart] at h₁
  subst h₁
  dsimp only
  rw [callWithin_of_not_passed _ a question hp]
  obtain ⟨now, heard, requests, h₂⟩ := answerWith_state { s with router := r₁ } a question deadline elapsed
  rcases hcall : ({ s with router := r₁ } : Service).answerWith a question deadline elapsed with ⟨result, s₂, e₂⟩
  rw [hcall] at h₂
  subst h₂
  dsimp only
  obtain ⟨r₃, sent, h₃⟩ := routedEnd_state
    { useOne { s with router := r₁ } a.lane with now, heard, requests } routed result s.now
  rcases hend : routedEnd
    { useOne { s with router := r₁ } a.lane with now, heard, requests } routed result s.now with ⟨result', s₃⟩
  rw [hend] at h₃
  subst h₃
  exact ⟨r₃, sent, now, heard, requests, rfl⟩

/-- The router, when one is attached, keeps its ledger's totals from dates. -/
def RouterDated (s : Service) : Prop := ∀ r, s.router = some r → r.ledger.Dated

/-- With the router's ledger keeping its totals from dates, the end of a call reported
at a date keeps the call's result. -/
theorem routedEnd_result {s : Service} (routed : Option Provider) (result : Except Fault Attempt)
    (startedAt : Float) (h : s.RouterDated) (hnow : (Clock.clip? s.now).isSome) :
    (s.routedEnd routed result startedAt).1 = result := by
  rcases hr : s.router with _ | r
  · unfold routedEnd
    rw [hr]
  · cases routed with
    | none =>
      unfold routedEnd
      rw [hr]
    | some p => rw [routedEnd_dated p result startedAt hr hnow (h r hr)]

theorem RouterDated.routedStart {s : Service} (h : s.RouterDated) (provider : String) :
    (s.routedStart provider).2.RouterDated := by
  intro r' hr'
  unfold Service.routedStart at hr'
  rcases hr : s.router with _ | r
  · rw [hr] at hr'
    exact h r' hr'
  · rw [hr] at hr'
    dsimp only at hr'
    split at hr' <;> (obtain rfl := Option.some.inj hr'; exact h r hr)

theorem RouterDated.routedEnd {s : Service} (h : s.RouterDated) (routed : Option Provider)
    (result : Except Fault Attempt) (startedAt : Float) (hnow : (Clock.clip? s.now).isSome) :
    (s.routedEnd routed result startedAt).2.RouterDated := by
  rcases hr : s.router with _ | r
  · unfold Service.routedEnd
    rw [hr]
    exact h
  · cases routed with
    | none =>
      unfold Service.routedEnd
      rw [hr]
      exact h
    | some p =>
      rw [routedEnd_dated p result startedAt hr hnow (h r hr)]
      intro r' hr'
      obtain rfl := Option.some.inj hr'
      exact (Router.recordResult_dated r _ hnow (h r hr)).2.1

/-- **A timed attempt at a date.** Before the deadline, with the router's ledger keeping
its totals from dates and the attempt ending at a date, its result is the model
call's, and the router's ledger still keeps its totals from dates. -/
theorem timedAttempt_dated (s : Service) (d : LaneDecision String) (a : Answerer) (question : String)
    {deadline : Option Deadline} {elapsed : Float} (hp : Deadline.passed deadline elapsed = false)
    (h : s.RouterDated) (hend : (Clock.clip? (s.timedAttempt d a question deadline elapsed).2.1.now).isSome) :
    (s.timedAttempt d a question deadline elapsed).1 = (s.answerWith a question deadline elapsed).1 ∧
      (s.timedAttempt d a question deadline elapsed).2.1.RouterDated := by
  have h₁ := h.routedStart d.provider
  obtain ⟨r₁, hs₁⟩ := routedStart_state s d.provider
  unfold timedAttempt at hend ⊢
  rcases hstart : s.routedStart d.provider with ⟨routed, s₁⟩
  rw [hstart] at h₁ hs₁ hend
  subst hs₁
  dsimp only at hend ⊢
  rw [callWithin_of_not_passed _ a question hp] at hend ⊢
  obtain ⟨hrouter, -⟩ := answerWith_frame { s with router := r₁ } a question deadline elapsed
  rcases hcall : ({ s with router := r₁ } : Service).answerWith a question deadline elapsed with ⟨result, s₂, e₂⟩
  rw [hcall] at hrouter hend
  dsimp only at hrouter hend ⊢
  rw [routedEnd_now] at hend
  have h₂ : s₂.RouterDated := fun r hr => h₁ r (hrouter ▸ hr)
  have hresult : result = (s.answerWith a question deadline elapsed).1 := by
    have e := (answerWith_congr (show Alike s { s with router := r₁ } from ⟨rfl, rfl, rfl, rfl, rfl, rfl, rfl⟩) rfl a question
      deadline elapsed).1
    rw [hcall] at e
    exact e
  exact ⟨(routedEnd_result routed result s.now h₂ hend).trans hresult, h₂.routedEnd routed result s.now hend⟩

/-! ### Faults with a text -/

/-- A model call fails, if it does, with a fault that has a text: the model's, the
timeout's, or the reason of a deadline whose reason has one. -/
theorem answerWith_textful (s : Service) (a : Answerer) (question : String) {deadline : Option Deadline}
    (hd : ∀ dl ∈ deadline, dl.reason.hasText = true) (elapsed : Float) :
    Fault.textful (s.answerWith a question deadline elapsed).1 = true := by
  unfold answerWith
  dsimp only
  split
  · rw [Fault.textful_map]
    exact Model.ask_textful _ _ _ _
  · rfl
  · cases deadline with
    | none => rfl
    | some dl => exact hd dl rfl

theorem callWithin_textful (s : Service) (a : Answerer) (question : String) {deadline : Option Deadline}
    (hd : ∀ dl ∈ deadline, dl.reason.hasText = true) (elapsed : Float) :
    Fault.textful (s.callWithin a question deadline elapsed).1 = true := by
  unfold callWithin
  split
  · next dl =>
    split
    · exact hd dl rfl
    · exact answerWith_textful s a question hd elapsed
  · exact answerWith_textful s a question hd elapsed

theorem sendReport_textful (r : Router) (sent : List Sent) (c : CallReport) (now : Float) :
    Fault.textful (sendReport r sent c now).1 = true := by
  have h := r.recordResult_textful c now
  unfold sendReport
  rcases hrec : r.recordResult c now with ⟨g | ⟨⟩, r'⟩
  · rw [hrec] at h
    exact h
  · rfl

theorem reportFailure_textful (r : Router) (sent : List Sent) (c : CallReport) (now : Float) {f : Fault}
    (hf : f.hasText = true) : Fault.textful (reportFailure r sent c now f).1 = true := by
  have h := sendReport_textful r sent c now
  unfold reportFailure
  rcases hsend : sendReport r sent c now with ⟨g | ⟨⟩, r', sent'⟩
  · rw [hsend] at h
    exact h
  · exact hf

/-- Reporting an attempt's end keeps a fault with a text, or fails with the router's
own, which has one too. -/
theorem routedEnd_textful (s : Service) (routed : Option Provider) {result : Except Fault Attempt}
    (h : Fault.textful result = true) (startedAt : Float) :
    Fault.textful (s.routedEnd routed result startedAt).1 = true := by
  unfold routedEnd
  rcases hr : s.router with _ | r
  · exact h
  · cases routed with
    | none => exact h
    | some p =>
      dsimp only
      cases result with
      | ok a =>
        have hs := sendReport_textful r s.sent (attemptReport p (s.now - startedAt) (r.ledger.costPer1k p) (.ok a))
          s.now
        dsimp only
        rcases hsend : sendReport r s.sent (attemptReport p (s.now - startedAt) (r.ledger.costPer1k p) (.ok a))
            s.now with ⟨g | ⟨⟩, r', sent'⟩
        · rw [hsend] at hs
          dsimp only
          have hf := reportFailure_textful r' sent'
            (attemptReport p (s.now - startedAt) (r.ledger.costPer1k p) (.error g)) s.now hs
          rcases hrf : reportFailure r' sent' (attemptReport p (s.now - startedAt) (r.ledger.costPer1k p) (.error g))
              s.now g with ⟨res, r'', sent''⟩
          rw [hrf] at hf
          exact hf
        · rfl
      | error f =>
        have hf := reportFailure_textful r s.sent
          (attemptReport p (s.now - startedAt) (r.ledger.costPer1k p) (.error f)) s.now h
        dsimp only
        rcases hrf : reportFailure r s.sent (attemptReport p (s.now - startedAt) (r.ledger.costPer1k p) (.error f))
            s.now f with ⟨res, r'', sent''⟩
        rw [hrf] at hf
        exact hf

theorem timedAttempt_textful (s : Service) (d : LaneDecision String) (a : Answerer) (question : String)
    {deadline : Option Deadline} (hd : ∀ dl ∈ deadline, dl.reason.hasText = true) (elapsed : Float) :
    Fault.textful (s.timedAttempt d a question deadline elapsed).1 = true := by
  unfold timedAttempt
  rcases hstart : s.routedStart d.provider with ⟨routed, s₁⟩
  dsimp only
  have hcall := callWithin_textful s₁ a question hd elapsed
  rcases hc : s₁.callWithin a question deadline elapsed with ⟨result, s₂, e₂⟩
  rw [hc] at hcall
  dsimp only
  have hend := routedEnd_textful s₂ routed hcall s₁.now
  rcases he : s₂.routedEnd routed result s₁.now with ⟨r, s₃⟩
  rw [he] at hend
  exact hend

/-! ### One attempt through the breaker -/

/-- Whether the lane's breaker lets an attempt through now. -/
def admits (s : Service) (lane : Lane) : Bool :=
  match s.breakers.find? (Key.ofString lane.name) with
  | some b => (b.allow s.clock).value.isOk
  | none => false

section guarded

variable (s : Service) (d : LaneDecision String) (a : Answerer) (question : String)
  (deadline : Option Deadline) (elapsed : Float)

theorem admits_of_find? {b : Breaker.Breaker} (hb : s.breakers.find? (Key.ofString d.lane.name) = some b) :
    s.admits d.lane = (b.allow s.clock).value.isOk := by
  unfold admits
  rw [hb]

theorem allow_of_admits {b : Breaker.Breaker} (hb : s.breakers.find? (Key.ofString d.lane.name) = some b)
    (h : s.admits d.lane = true) : (b.allow s.clock).value = .ok () := by
  rw [admits_of_find? s d hb] at h
  revert h
  cases (b.allow s.clock).value <;> simp [Except.isOk, Except.toBool]

theorem guarded_of_none (hb : s.breakers.find? (Key.ofString d.lane.name) = none) :
    s.guarded d a question deadline elapsed =
      (.error (.notFound (Json.ofString "Circuit breaker") (Key.ofString d.lane.name)), s, elapsed) := by
  unfold guarded
  rw [hb]

theorem guarded_of_refused {b : Breaker.Breaker} {f : Fault}
    (hb : s.breakers.find? (Key.ofString d.lane.name) = some b) (hv : (b.allow s.clock).value = .error f) :
    s.guarded d a question deadline elapsed = (.error f, s.admitted b, elapsed) := by
  unfold guarded admitted
  rw [hb]
  dsimp only
  rw [hv]

/-- An attempt let through is the timed attempt after the admission, its end recorded
on the breaker. -/
theorem guarded_of_admitted {b : Breaker.Breaker}
    (hb : s.breakers.find? (Key.ofString d.lane.name) = some b) (hv : (b.allow s.clock).value = .ok ())
    {result : Except Fault Attempt} {s' : Service} {e' : Float}
    (ht : (s.admitted b).timedAttempt d a question deadline elapsed = (result, s', e')) :
    s.guarded d a question deadline elapsed =
      (Breaker.Breaker.passOn ((b.allow s.clock).breaker.complete s'.clock result).value result,
        { s' with breakers := s'.breakers.update ((b.allow s.clock).breaker.complete s'.clock result).breaker,
                  events := s'.events ++ ((b.allow s.clock).breaker.complete s'.clock result).events }, e') := by
  unfold guarded
  rw [hb]
  dsimp only
  rw [hv]
  dsimp only
  unfold admitted at ht
  rw [ht]
  rfl

/-- **An attempt fails with a text.** Through the breaker, an attempt fails, if it
does, with a fault that has a text, as long as the deadline's reason has one. -/
theorem guarded_textful (hd : ∀ dl ∈ deadline, dl.reason.hasText = true) :
    Fault.textful (s.guarded d a question deadline elapsed).1 = true := by
  rcases hb : s.breakers.find? (Key.ofString d.lane.name) with _ | b
  · rw [guarded_of_none s d a question deadline elapsed hb]
    rfl
  · rcases hv : (b.allow s.clock).value with f | ⟨⟩
    · rw [guarded_of_refused s d a question deadline elapsed hb hv]
      have h := Breaker.Breaker.allow_value_textful b s.clock
      rwa [hv] at h
    · have htimed := timedAttempt_textful (s.admitted b) d a question hd elapsed
      rcases ht : (s.admitted b).timedAttempt d a question deadline elapsed with ⟨result, s', e'⟩
      rw [ht] at htimed
      rw [guarded_of_admitted s d a question deadline elapsed hb hv ht]
      exact Breaker.Breaker.passOn_textful (Breaker.Breaker.complete_value_textful _ _ result) htimed

/-- **The model is asked exactly when the breaker lets the attempt through**, the
deadline not having fired. -/
theorem usedBy_guarded (hp : Deadline.passed deadline elapsed = false) :
    (s.guarded d a question deadline elapsed).2.1.usedBy a.lane =
      s.usedBy a.lane + if s.admits d.lane then 1 else 0 := by
  rcases hb : s.breakers.find? (Key.ofString d.lane.name) with _ | b
  · rw [guarded_of_none s d a question deadline elapsed hb]
    simp [admits, hb]
  · rw [admits_of_find? s d hb]
    rcases hv : (b.allow s.clock).value with f | ⟨⟩
    · rw [guarded_of_refused s d a question deadline elapsed hb hv]
      rfl
    · obtain ⟨router, sent, now, heard, requests, hs'⟩ := timedAttempt_state (s.admitted b) d a question hp
      rcases ht : (s.admitted b).timedAttempt d a question deadline elapsed with ⟨result, s', e'⟩
      rw [ht] at hs'
      dsimp only at hs'
      rw [guarded_of_admitted s d a question deadline elapsed hb hv ht, hs']
      exact usedBy_useOne (s.admitted b) a.lane

/-- An attempt leaves the settings, answerers, gate, fallback source, store and tally
alone. -/
theorem alike_guarded (hp : Deadline.passed deadline elapsed = false) :
    Alike s (s.guarded d a question deadline elapsed).2.1 := by
  rcases hb : s.breakers.find? (Key.ofString d.lane.name) with _ | b
  · rw [guarded_of_none s d a question deadline elapsed hb]
    exact Alike.refl s
  · rcases hv : (b.allow s.clock).value with f | ⟨⟩
    · rw [guarded_of_refused s d a question deadline elapsed hb hv]
      exact ⟨rfl, rfl, rfl, rfl, rfl, rfl, rfl⟩
    · obtain ⟨router, sent, now, heard, requests, hs'⟩ := timedAttempt_state (s.admitted b) d a question hp
      rcases ht : (s.admitted b).timedAttempt d a question deadline elapsed with ⟨result, s', e'⟩
      rw [ht] at hs'
      dsimp only at hs'
      rw [guarded_of_admitted s d a question deadline elapsed hb hv ht, hs']
      exact ⟨rfl, rfl, rfl, rfl, rfl, rfl, rfl⟩

/-- An attempt keeps every breaker in the registry. -/
theorem keeps_guarded (hp : Deadline.passed deadline elapsed = false) :
    s.breakers.Keeps (s.guarded d a question deadline elapsed).2.1.breakers := by
  rcases hb : s.breakers.find? (Key.ofString d.lane.name) with _ | b
  · rw [guarded_of_none s d a question deadline elapsed hb]
    exact .refl _
  have hadmitted := Breaker.Registry.keeps_update s.breakers (b.allow s.clock).breaker
  rcases hv : (b.allow s.clock).value with f | ⟨⟩
  · rw [guarded_of_refused s d a question deadline elapsed hb hv]
    exact hadmitted
  · obtain ⟨router, sent, now, heard, requests, hs'⟩ := timedAttempt_state (s.admitted b) d a question hp
    rcases ht : (s.admitted b).timedAttempt d a question deadline elapsed with ⟨result, s', e'⟩
    rw [ht] at hs'
    dsimp only at hs'
    rw [guarded_of_admitted s d a question deadline elapsed hb hv ht, hs']
    exact hadmitted.trans (Breaker.Registry.keeps_update _ _)

/-- The router's ledger keeps its totals from dates through an attempt ending at a
date. -/
theorem RouterDated.guarded (hp : Deadline.passed deadline elapsed = false) (h : s.RouterDated)
    (hend : Breaker.Breaker.isDate (s.guarded d a question deadline elapsed).2.1.now = true) :
    (s.guarded d a question deadline elapsed).2.1.RouterDated := by
  rcases hb : s.breakers.find? (Key.ofString d.lane.name) with _ | b
  · rw [guarded_of_none s d a question deadline elapsed hb]
    exact h
  · rcases hv : (b.allow s.clock).value with f | ⟨⟩
    · rw [guarded_of_refused s d a question deadline elapsed hb hv]
      exact h
    · rcases ht : (s.admitted b).timedAttempt d a question deadline elapsed with ⟨result, s', e'⟩
      have hdated := timedAttempt_dated (s.admitted b) d a question hp h
      rw [ht] at hdated
      rw [guarded_of_admitted s d a question deadline elapsed hb hv ht] at hend ⊢
      exact (hdated hend).2

/-- **An attempt let through, at a date.** Before the deadline, with the router's
ledger keeping its totals from dates and the attempt ending at a date, its result is
the model call's, and that result is what the lane's breaker records. -/
theorem guarded_dated {b : Breaker.Breaker} (hp : Deadline.passed deadline elapsed = false)
    (hd : ∀ dl ∈ deadline, dl.reason.hasText = true)
    (hb : s.breakers.find? (Key.ofString d.lane.name) = some b) (hv : (b.allow s.clock).value = .ok ())
    (h : s.RouterDated)
    (hend : Breaker.Breaker.isDate (s.guarded d a question deadline elapsed).2.1.now = true) :
    (s.guarded d a question deadline elapsed).1 = (s.answerWith a question deadline elapsed).1 ∧
      (s.guarded d a question deadline elapsed).2.1.breakers =
        (s.breakers.update (b.allow s.clock).breaker).update ((b.allow s.clock).breaker.complete
          (s.guarded d a question deadline elapsed).2.1.now (s.guarded d a question deadline elapsed).1).breaker := by
  obtain ⟨router, sent, now, heard, requests, hs'⟩ := timedAttempt_state (s.admitted b) d a question hp
  have hdated := timedAttempt_dated (s.admitted b) d a question hp h
  rcases ht : (s.admitted b).timedAttempt d a question deadline elapsed with ⟨result, s', e'⟩
  rw [ht] at hs' hdated
  dsimp only at hs' hdated
  rw [guarded_of_admitted s d a question deadline elapsed hb hv ht] at hend ⊢
  dsimp only at hend ⊢
  obtain ⟨hresult, -⟩ := hdated hend
  -- the model call's fault has a text, so at a date its end is recorded without a fault
  have hrecorded := Breaker.Breaker.complete_value_of_textful (b.allow s.clock).breaker s'.now hend
    (hresult ▸ answerWith_textful (s.admitted b) a question hd elapsed)
  unfold clock at hrecorded ⊢
  rw [hrecorded, Breaker.Breaker.passOn_ok]
  have hsame : Alike s (s.admitted b) := ⟨rfl, rfl, rfl, rfl, rfl, rfl, rfl⟩
  refine ⟨hresult.trans (answerWith_congr hsame rfl a question deadline elapsed).1, ?_⟩
  rw [hs']
  rfl

/-- An attempt the lane's breaker does not let through fails with its refusal, a
`CircuitOpenError`, and the model is not asked. -/
theorem guarded_of_not_admits (h : (s.breakers.find? (Key.ofString d.lane.name)).isSome)
    (hn : s.admits d.lane = false) :
    ∃ k ms, (s.guarded d a question deadline elapsed).1 = .error (.circuitOpen k ms) := by
  obtain ⟨b, hb⟩ := Option.isSome_iff_exists.1 h
  rw [admits_of_find? s d hb] at hn
  have hv := Breaker.Breaker.allow_value b s.clock .quiet
  rw [Breaker.Sink.escape_quiet] at hv
  dsimp only at hv
  split at hv
  · rw [guarded_of_refused s d a question deadline elapsed hb hv]
    exact ⟨_, _, rfl⟩
  · rw [hv] at hn
    simp [Except.isOk, Except.toBool] at hn

end guarded

/-! ### The run of a lane call -/

/-- The attempts a lane call makes for a question, and how it ends: a run of the retry
loop over attempts through the lane's breaker, from the service as it is, with the
waiting clock at zero, that reports its outcome. -/
def LaneRun (s : Service) (d : LaneDecision String) (a : Answerer) (question : String)
    (ts : List (Try Service Attempt)) (r : Except (Option Fault) Attempt) (s' : Service) : Prop :=
  ∃ e', Runs (retryPlanOf s.config) (fun f _ => some (retryable f)) (deadlineOf s.config)
    (fun _ x e => x.guarded d a question (deadlineOf s.config) e) 1 none s 0 ts (.ok r) s' e'

/-- **A lane call ends as its run does.** With the lane's breaker in the registry, the
call's answer is read off the outcome of its attempts' run, in the state the run ends
in: every attempt fails, if it does, with a fault that has a text, so the loop
reports its outcome rather than throw. -/
theorem callLane_run (s : Service) (d : LaneDecision String) (a : Answerer) (question : String)
    (h : (s.breakers.find? (Key.ofString d.lane.name)).isSome) :
    ∃ ts rr s', s.LaneRun d a question ts rr.result s' ∧ s.callLane d a question = (laneResult rr, s') := by
  obtain ⟨b, hb⟩ := Option.isSome_iff_exists.1 h
  have hruns := retry_runs (retryPlanOf s.config) (fun f _ => some (retryable f)) (deadlineOf s.config)
    (fun _ x e => x.guarded d a question (deadlineOf s.config) e) s 0
  rcases hout : retry (retryPlanOf s.config) (fun f _ => some (retryable f)) (deadlineOf s.config)
    (fun _ x e => x.guarded d a question (deadlineOf s.config) e) s 0 with ⟨out, s', e'⟩
  rw [hout] at hruns
  obtain ⟨ts, hts⟩ := hruns
  have hfaults : ∀ t ∈ ts, Fault.textful t.result = true := fun t ht => by
    have htext := guarded_textful t.before d a question _ t.startedAt (deadlineOf_textful s.config)
    rwa [(hts.attempt_eq t ht).1] at htext
  obtain ⟨o, ho⟩ := hts.reports hfaults (deadlineOf_textful s.config)
  cases out with
  | error f => cases ho
  | ok rr =>
    refine ⟨ts, rr, s', ⟨e', hts⟩, ?_⟩
    unfold callLane Breaker.Registry.obtain
    rw [hb]
    dsimp only
    rw [hout]

section run

variable {s : Service} {d : LaneDecision String} {a : Answerer} {question : String}
  {ts : List (Try Service Attempt)} {r : Except (Option Fault) Attempt} {s' : Service}

/-- Each attempt of the run is an attempt through the breaker at its state and clock,
begun before the deadline. -/
theorem LaneRun.attempt (h : s.LaneRun d a question ts r s') {t : Try Service Attempt} (ht : t ∈ ts) :
    t.before.guarded d a question (deadlineOf s.config) t.startedAt = (t.result, t.after, t.endedAt) ∧
      Deadline.passed (deadlineOf s.config) t.startedAt = false :=
  h.elim fun _ hr => hr.attempt_eq t ht

/-- **What a lane call's run keeps.** Every breaker stays in the registry, no attempt
changes the settings, answerers, gate, fallback source, store or tally, and the lane's
model is asked once per attempt its breaker lets through. -/
theorem LaneRun.keeps (h : s.LaneRun d a question ts r s') :
    (∀ t ∈ ts, s.breakers.Keeps t.before.breakers ∧ Alike s t.before) ∧
      s.breakers.Keeps s'.breakers ∧ Alike s s' ∧
      s'.usedBy a.lane = s.usedBy a.lane + ts.countP (·.before.admits d.lane) := by
  obtain ⟨e', hr⟩ := h
  have hchain := hr.chain
  have hstep : ∀ t ∈ ts, t.after = (t.before.guarded d a question (deadlineOf s.config) t.startedAt).2.1 ∧
      Deadline.passed (deadlineOf s.config) t.startedAt = false := fun t ht => by
    obtain ⟨hatt, hp⟩ := hr.attempt_eq t ht
    exact ⟨by rw [hatt], hp⟩
  obtain ⟨hall, hkeeps, hend⟩ := hchain.invariant
    (P := fun x => s.breakers.Keeps x.breakers ∧ Alike s x) ⟨.refl _, Alike.refl s⟩
    fun t ht hbefore => by
      obtain ⟨hafter, hp⟩ := hstep t ht
      rw [hafter]
      exact ⟨hbefore.1.trans (keeps_guarded _ _ _ _ _ _ hp), hbefore.2.trans (alike_guarded _ _ _ _ _ _ hp)⟩
  refine ⟨hall, hkeeps, hend, hchain.count (q := fun x => x.usedBy a.lane) fun t ht => ?_⟩
  obtain ⟨hafter, hp⟩ := hstep t ht
  rw [hafter]
  exact usedBy_guarded _ _ _ _ _ _ hp

/-- **A lane call's run at dates.** When the router's ledger keeps its totals from dates
and every attempt ends at a date, every attempt the breaker lets through has the model
call's result, and that result is what the lane's breaker records. -/
theorem LaneRun.dated (h : s.LaneRun d a question ts r s') (hr : s.RouterDated)
    (hd : ∀ t ∈ ts, Breaker.Breaker.isDate t.after.now = true) :
    ∀ t ∈ ts, ∀ b, t.before.breakers.find? (Key.ofString d.lane.name) = some b →
      (b.allow t.before.clock).value = .ok () →
      t.result = (t.before.answerWith a question (deadlineOf s.config) t.startedAt).1 ∧
        t.after.breakers = (t.before.breakers.update (b.allow t.before.clock).breaker).update
          ((b.allow t.before.clock).breaker.complete t.after.now t.result).breaker := by
  obtain ⟨e', hruns⟩ := h
  have hstep : ∀ t ∈ ts, (t.result, t.after, t.endedAt) =
      t.before.guarded d a question (deadlineOf s.config) t.startedAt ∧
      Deadline.passed (deadlineOf s.config) t.startedAt = false := fun t ht => by
    obtain ⟨hatt, hp⟩ := hruns.attempt_eq t ht
    exact ⟨hatt.symm, hp⟩
  obtain ⟨hdated, -⟩ := hruns.chain.invariant (P := RouterDated) hr fun t ht hbefore => by
    obtain ⟨hatt, hp⟩ := hstep t ht
    have hend := hd t ht
    have e : t.after = (t.before.guarded d a question (deadlineOf s.config) t.startedAt).2.1 := by rw [← hatt]
    rw [e] at hend ⊢
    exact hbefore.guarded _ _ _ _ _ _ hp hend
  intro t ht b hb hv
  obtain ⟨hatt, hp⟩ := hstep t ht
  have hend := hd t ht
  have hresult : t.result = (t.before.guarded d a question (deadlineOf s.config) t.startedAt).1 := by rw [← hatt]
  have hafter : t.after = (t.before.guarded d a question (deadlineOf s.config) t.startedAt).2.1 := by rw [← hatt]
  rw [hafter] at hend
  obtain ⟨hres, hbreakers⟩ := guarded_dated _ _ _ _ _ _ hp (deadlineOf_textful s.config) hb hv (hdated t ht) hend
  rw [hresult, hafter]
  exact ⟨hres, hbreakers⟩

/-- Refused attempts fail with the refusal. -/
theorem LaneRun.refused (h : s.LaneRun d a question ts r s')
    (hb : (s.breakers.find? (Key.ofString d.lane.name)).isSome) :
    ∀ t ∈ ts, t.before.admits d.lane = false → ∃ k ms, t.result = .error (.circuitOpen k ms) := by
  intro t ht hn
  obtain ⟨hatt, hp⟩ := h.attempt ht
  obtain ⟨k, ms, hk⟩ := guarded_of_not_admits _ _ a question _ t.startedAt ((h.keeps.1 t ht).1 _ hb) hn
  rw [hatt] at hk
  exact ⟨k, ms, hk⟩

/-- The loop goes on after a fault only when it may retry it. -/
theorem retryable_of_stopsAfter {plan : RetryPlan} {f : Fault} {k : Nat}
    (h : stopsAfter plan (fun f _ => some (retryable f)) f k = false) : retryable f = true := by
  unfold stopsAfter at h
  dsimp only at h
  cases hretry : retryable f
  · rw [hretry] at h
    simp at h
  · rfl

/-- **Fail fast.** Every attempt but the last failed with a fault the loop retries: so
none follows a success, a configuration fault or a refusal by the breaker. -/
theorem LaneRun.retried (h : s.LaneRun d a question ts r s') :
    ∀ t ∈ ts.dropLast, ∃ f, t.result = .error f ∧ retryable f = true := by
  obtain ⟨e', hr⟩ := h
  intro t ht
  obtain ⟨f, hf, -, hs⟩ := hr.retried t ht
  exact ⟨f, hf, retryable_of_stopsAfter hs⟩

theorem LaneRun.last_or_retried (h : s.LaneRun d a question ts r s') {t : Try Service Attempt} (ht : t ∈ ts) :
    ts.getLast? = some t ∨ ∃ f, t.result = .error f ∧ retryable f = true := by
  obtain ⟨e', hr⟩ := h
  exact (hr.last_or_retried ht).imp id fun ⟨f, hf, _, hs⟩ => ⟨f, hf, retryable_of_stopsAfter hs⟩

/-- No more attempts are made than the settings allow. -/
theorem LaneRun.length_le (h : s.LaneRun d a question ts r s') :
    ts.length ≤ attemptsAllowed (Primitive.add s.config.maxRetries (.num 1)).toNumber := by
  obtain ⟨e', hr⟩ := h
  have hlen := hr.length_le
  simp only [retryPlanOf] at hlen
  omega

theorem retryable_eq_false {f : Fault} (h : retryable f = false) :
    (∃ m, f = .configuration m) ∨ ∃ k ms, f = .circuitOpen k ms := by
  cases f <;> simp_all [retryable]

/-- The deadline's reason is a fault the loop would retry. -/
theorem retryable_deadline_reason (c : PipelineConfig) {f : Fault}
    (h : (deadlineOf c).map (·.reason) = some f) : retryable f = true := by
  unfold deadlineOf at h
  split at h
  · simp at h
  · split at h
    · simp at h
    · simp only [Option.map_some, Option.some.injEq] at h
      rw [← h]
      rfl

/-- **How a lane call ends, from its last attempt**: with the model's attempt when it
succeeded; as a configuration fault, or the breaker's refusal, when it ended so; and
otherwise, with attempts run out or the deadline past, as a failed lane call. -/
theorem LaneRun.ends {rr : Retried Attempt} (h : s.LaneRun d a question ts rr.result s') :
    (∃ t m, ts.getLast? = some t ∧ t.result = .ok m ∧ laneResult rr = .ok (.ok m)) ∨
    (∃ t m, ts.getLast? = some t ∧ t.result = .error (.configuration m) ∧
      laneResult rr = .error (.configuration m)) ∨
    (∃ t k ms, ts.getLast? = some t ∧ t.result = .error (.circuitOpen k ms) ∧
      laneResult rr = .ok (.error (.circuitOpen k ms))) ∨
    ((ts.getLast? = none ∨ ∃ t f, ts.getLast? = some t ∧ t.result = .error f ∧ retryable f = true) ∧
      ∃ n f, laneResult rr = .ok (.error (.laneCallFailed n f))) := by
  obtain ⟨e', hr⟩ := h
  have hfailed : ∀ f, rr.result = .error (some f) → retryable f = true →
      laneResult rr = .ok (.error (.laneCallFailed rr.attempts f)) := by
    intro f hf hretry
    unfold laneResult
    rw [hf]
    cases f <;> first | rfl | simp [retryable] at hretry
  rcases hlast : ts.getLast? with _ | t
  · -- no attempt: the deadline's reason, or nothing
    have hnil : ts = [] := List.getLast?_eq_none_iff.1 hlast
    subst hnil
    refine .inr (.inr (.inr ⟨.inl rfl, ?_⟩))
    rcases hr.result_of_nil with hnone | hreason
    · have hnone := gaveUp_eq_ok hnone.symm
      exact ⟨rr.attempts, .aborted, by unfold laneResult; rw [hnone]; rfl⟩
    · have hreason := gaveUp_eq_ok hreason.symm
      rcases hdl : (deadlineOf s.config).map (·.reason) with _ | f
      · rw [hdl] at hreason
        exact ⟨rr.attempts, .aborted, by unfold laneResult; rw [hreason]; rfl⟩
      · rw [hdl] at hreason
        exact ⟨rr.attempts, f, hfailed f hreason (retryable_deadline_reason s.config hdl)⟩
  · have hres := endedWith_eq_ok (hr.result_eq_last t hlast).symm
    rcases hresult : t.result with f | m
    · rw [hresult] at hres
      cases hretry : retryable f
      · rcases retryable_eq_false hretry with ⟨m, rfl⟩ | ⟨k, ms, rfl⟩
        · exact .inr (.inl ⟨t, m, rfl, hresult, by unfold laneResult; rw [hres]; rfl⟩)
        · exact .inr (.inr (.inl ⟨t, k, ms, rfl, hresult, by unfold laneResult; rw [hres]; rfl⟩))
      · exact .inr (.inr (.inr ⟨.inr ⟨t, f, rfl, hresult, hretry⟩, rr.attempts, f, hfailed f hres hretry⟩))
    · rw [hresult] at hres
      exact .inl ⟨t, m, rfl, hresult, by unfold laneResult; rw [hres]; rfl⟩

/-- **A configuration fault ends the call, and is its answer**: the call rejects with a
configuration fault exactly when an attempt of its run ended with it. -/
theorem LaneRun.configuration_iff {rr : Retried Attempt} (h : s.LaneRun d a question ts rr.result s')
    (m : String) : laneResult rr = .error (.configuration m) ↔ ∃ t ∈ ts, t.result = .error (.configuration m) := by
  constructor
  · intro hl
    rcases h.ends with ⟨t, m', -, -, hl'⟩ | ⟨t, m', hlast, hres, hl'⟩ | ⟨t, k, ms, -, -, hl'⟩ | ⟨-, n, g, hl'⟩ <;>
      rw [hl] at hl' <;> cases hl'
    exact ⟨t, List.mem_of_getLast? hlast, hres⟩
  · rintro ⟨t, ht, hres⟩
    -- no attempt is retried after a configuration fault, so it is the last one
    have hlast : ts.getLast? = some t := by
      rcases h.last_or_retried ht with hlast | ⟨f, hf, hretry⟩
      · exact hlast
      · rw [hres] at hf
        cases hf
        simp [retryable] at hretry
    have hend : ∀ t', ts.getLast? = some t' → t'.result = .error (.configuration m) := by
      intro t' h'
      rw [hlast] at h'
      cases h'
      exact hres
    rcases h.ends with ⟨t', m', hlast', hres', -⟩ | ⟨t', m', hlast', hres', hl⟩ |
      ⟨t', k, ms, hlast', hres', -⟩ | ⟨hnone | ⟨t', g, hlast', hres', hretry⟩, -⟩
    · rw [hend t' hlast'] at hres'
      cases hres'
    · rw [hend t' hlast'] at hres'
      cases hres'
      exact hl
    · rw [hend t' hlast'] at hres'
      cases hres'
    · rw [hlast] at hnone
      cases hnone
    · rw [hend t' hlast'] at hres'
      cases hres'
      simp [retryable] at hretry

end run

end Service

end LaneGate
