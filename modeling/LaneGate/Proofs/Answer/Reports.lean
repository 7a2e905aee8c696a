import LaneGate.Answer.Service
import LaneGate.Proofs.Breaker.Steps
import LaneGate.Proofs.Routing.Feedback
/-!
# What an attempt reports to the router

An attempt through a lane's breaker that the breaker lets through reports a start to
the router, for the decision's provider if it is registered, then asks the model,
and reports the end once the call has settled: its latency, and on success the tokens
and what they cost. An attempt the breaker refuses reports nothing.

## What is proved

* `Service.routedEnd_dated`: at a clock reading that is a date, the end of an attempt
  is reported once, recorded in full, and the attempt keeps its result.
* `Service.timedAttempt_reports`: a timed attempt feeds the router exactly its start
  and its end (`Service.attemptFeedback`).
* `Service.guarded_admitted`, `Service.guarded_refused`: through the breaker, an
  attempt let through reports as a timed attempt does; one refused changes nothing
  the router or its telemetry sink holds.
* `Service.attempts_report_balanced`: the reports of an attempt are a start and the
  end of that same call, with the latency, tokens and cost of its result; and under
  any interleaving of such calls, once all have ended, the router's counts in flight
  are back where they were, with one response time per call and one usage record per
  call that cost something.
-/

namespace LaneGate

namespace Service

/-- What one attempt on a registered provider reports: the start of a call at the
attempt's start, and its end, with the report of its result, at the attempt's end. -/
def attemptFeedback (p : Provider) (per1k startedAt endedAt : Float) (result : Except Fault Attempt) :
    List Feedback :=
  [.start p.name startedAt, .finish (attemptReport p (endedAt - startedAt) per1k result) endedAt]

/-- The end of a failed attempt reports no more than that it failed. -/
theorem attemptFeedback_error (p : Provider) (per1k startedAt endedAt : Float) (f g : Fault) :
    attemptFeedback p per1k startedAt endedAt (.error f) = attemptFeedback p per1k startedAt endedAt (.error g) :=
  rfl

/-- An attempt's two reports are one call: its end is reported under the name of its
start, when that name reads back as itself. -/
theorem attemptFeedback_interleaves (p : Provider) (hname : (Key.ofString p.name).text = p.name)
    (per1k startedAt endedAt : Float) (result : Except Fault Attempt) :
    Interleaves [] (attemptFeedback p per1k startedAt endedAt result) := by
  have hsame : (attemptReport p (endedAt - startedAt) per1k result).providerName.text = p.name := by
    cases result <;> exact hname
  unfold attemptFeedback
  refine Interleaves.start (Interleaves.finish ?_ ?_)
  · rw [hsame]
    exact List.mem_singleton_self _
  · rw [hsame, List.erase_cons_head]
    exact Interleaves.done

/-! ### Steps that leave the router alone -/

theorem answerWith_frame (s : Service) (a : Answerer) (question : String)
    (deadline : Option Deadline) (elapsed : Float) :
    (s.answerWith a question deadline elapsed).2.1.router = s.router ∧
      (s.answerWith a question deadline elapsed).2.1.sent = s.sent := by
  unfold answerWith
  dsimp only
  split <;> exact ⟨rfl, rfl⟩

/-- Asking the model, or failing at once past the deadline, reports nothing. -/
theorem callWithin_frame (s : Service) (a : Answerer) (question : String)
    (deadline : Option Deadline) (elapsed : Float) :
    (s.callWithin a question deadline elapsed).2.1.router = s.router ∧
      (s.callWithin a question deadline elapsed).2.1.sent = s.sent := by
  unfold callWithin
  split
  · split
    · exact ⟨rfl, rfl⟩
    · exact answerWith_frame s a question _ elapsed
  · exact answerWith_frame s a question _ elapsed

theorem routedEnd_now (s : Service) (routed : Option Provider) (result : Except Fault Attempt)
    (startedAt : Float) : (s.routedEnd routed result startedAt).2.now = s.now := by
  unfold routedEnd
  split <;> rfl

/-! ### The two reports -/

/-- The start of an attempt on a registered provider: the provider is looked up (its
windows rolled to now) and a start is reported for its name. -/
theorem routedStart_registered {s : Service} {provider : String} {r : Router} {p : Provider}
    (hr : s.router = some r) (hp : (r.providers.get provider s.now).1 = some p) :
    s.routedStart provider =
      (some p, { s with router := some (({ r with providers := (r.providers.get provider s.now).2 } :
        Router).recordStart p.name s.now) }) := by
  unfold routedStart
  rw [hr]
  dsimp only
  rcases hget : r.providers.get provider s.now with ⟨found, providers⟩
  rw [hget] at hp
  subst hp
  rfl

/-- **The end of an attempt at a date.** With the ledger's totals started at dates,
the report of the attempt is recorded in full, exactly once, and the telemetry sink
hears of it; the attempt keeps its result. -/
theorem routedEnd_dated {s : Service} {r : Router} (p : Provider) (result : Except Fault Attempt)
    (startedAt : Float) (hr : s.router = some r) (hnow : (Clock.clip? s.now).isSome)
    (hl : r.ledger.Dated) :
    s.routedEnd (some p) result startedAt =
      let report := attemptReport p (s.now - startedAt) (r.ledger.costPer1k p) result
      (result, { s with router := some (r.recordResult report s.now).2,
                        sent := s.sent ++ [.result report s.now] }) := by
  have hok : ∀ c : CallReport, (r.recordResult c s.now).1 = .ok () :=
    fun c => (Router.recordResult_dated r c hnow hl).1
  unfold routedEnd
  rw [hr]
  dsimp only
  cases result with
  | ok a =>
    dsimp only
    unfold sendReport
    rcases hrec : r.recordResult (attemptReport p (s.now - startedAt) (r.ledger.costPer1k p) (.ok a)) s.now
      with ⟨done, r'⟩
    have hdone := hok (attemptReport p (s.now - startedAt) (r.ledger.costPer1k p) (.ok a))
    rw [hrec] at hdone
    subst hdone
    rfl
  | error f =>
    dsimp only
    unfold reportFailure sendReport
    rcases hrec : r.recordResult (attemptReport p (s.now - startedAt) (r.ledger.costPer1k p) (.error f)) s.now
      with ⟨done, r'⟩
    have hdone := hok (attemptReport p (s.now - startedAt) (r.ledger.costPer1k p) (.error f))
    rw [hrec] at hdone
    subst hdone
    rfl

/-- **A timed attempt's reports.** On a provider registered with the router, with the
ledger's totals started at dates and the attempt ending at a date, the router is fed
exactly the attempt's start, at its start, and its end with the report of its result,
at its end. -/
theorem timedAttempt_reports {s : Service} {r : Router} {p : Provider} (d : LaneDecision String)
    (a : Answerer) (question : String) (deadline : Option Deadline) (elapsed : Float)
    (hr : s.router = some r) (hp : (r.providers.get d.provider s.now).1 = some p)
    (hl : r.ledger.Dated)
    (hend : (Clock.clip? (s.timedAttempt d a question deadline elapsed).2.1.now).isSome) :
    (s.timedAttempt d a question deadline elapsed).2.1.router =
      some (({ r with providers := (r.providers.get d.provider s.now).2 } : Router).feed
        (attemptFeedback p (r.ledger.costPer1k p) s.now (s.timedAttempt d a question deadline elapsed).2.1.now
          (s.timedAttempt d a question deadline elapsed).1)) := by
  unfold timedAttempt at hend ⊢
  rw [routedStart_registered hr hp] at hend ⊢
  dsimp only at hend ⊢
  obtain ⟨hrouter, -⟩ := callWithin_frame { s with router := some (({ r with providers :=
    (r.providers.get d.provider s.now).2 } : Router).recordStart p.name s.now) } a question deadline elapsed
  rcases hcall : callWithin { s with router := some (({ r with providers :=
    (r.providers.get d.provider s.now).2 } : Router).recordStart p.name s.now) } a question deadline elapsed
    with ⟨result, s₂, elapsed₂⟩
  rw [hcall] at hrouter hend
  dsimp only at hrouter hend ⊢
  rw [routedEnd_now] at hend
  rw [routedEnd_dated p result s.now hrouter hend hl]
  rfl

/-! ### Through the breaker -/

section guarded

variable (s : Service) (d : LaneDecision String) (a : Answerer) (question : String)
  (deadline : Option Deadline) (elapsed : Float)

/-- The service once the lane's breaker has been asked to let an attempt through. -/
def admitted (b : Breaker.Breaker) : Service :=
  { s with breakers := s.breakers.update (b.allow s.clock).breaker,
           events := s.events ++ (b.allow s.clock).events }

/-- **An attempt let through.** It runs as a timed attempt on the service after the
breaker's admission: the same router, telemetry and clock; when its end is recorded
at a date, its result is the timed attempt's, or the timed attempt failed with a
fault that has no text and the attempt fails with the `TypeError` of logging it. -/
theorem guarded_admitted {b : Breaker.Breaker} (hb : s.breakers.find? (Key.ofString d.lane.name) = some b)
    (hallow : (b.allow s.clock).value = .ok ()) :
    (s.guarded d a question deadline elapsed).2.1.router =
        ((s.admitted b).timedAttempt d a question deadline elapsed).2.1.router ∧
      (s.guarded d a question deadline elapsed).2.1.sent =
        ((s.admitted b).timedAttempt d a question deadline elapsed).2.1.sent ∧
      (s.guarded d a question deadline elapsed).2.1.now =
        ((s.admitted b).timedAttempt d a question deadline elapsed).2.1.now ∧
      (Breaker.Breaker.isDate ((s.admitted b).timedAttempt d a question deadline elapsed).2.1.now = true →
        (s.guarded d a question deadline elapsed).1 = ((s.admitted b).timedAttempt d a question deadline elapsed).1 ∨
          ∃ f, ((s.admitted b).timedAttempt d a question deadline elapsed).1 = .error f ∧ f.hasText = false ∧
            (s.guarded d a question deadline elapsed).1 = .error .wrongType) := by
  have hrecorded := fun hdate => Breaker.Breaker.complete_value_of_isDate (b.allow s.clock).breaker
    ((s.admitted b).timedAttempt d a question deadline elapsed).2.1.clock hdate
    ((s.admitted b).timedAttempt d a question deadline elapsed).1
  unfold guarded admitted at *
  rw [hb]
  dsimp only
  rw [hallow]
  dsimp only
  refine ⟨rfl, rfl, rfl, fun hdate => ?_⟩
  rcases hrecorded hdate with hv | ⟨f, hf, htext, hv⟩
  · exact .inl (by rw [hv])
  · exact .inr ⟨f, hf, htext, by rw [hv]⟩

/-- **An attempt refused.** Nothing the router or its telemetry sink holds changes,
and the clock does not move. -/
theorem guarded_refused {b : Breaker.Breaker} {f : Fault}
    (hb : s.breakers.find? (Key.ofString d.lane.name) = some b)
    (hallow : (b.allow s.clock).value = .error f) :
    (s.guarded d a question deadline elapsed).1 = .error f ∧
      (s.guarded d a question deadline elapsed).2.1.router = s.router ∧
      (s.guarded d a question deadline elapsed).2.1.sent = s.sent ∧
      (s.guarded d a question deadline elapsed).2.1.now = s.now := by
  unfold guarded
  rw [hb]
  dsimp only
  rw [hallow]
  exact ⟨rfl, rfl, rfl, rfl⟩

end guarded

/-- **Balanced reports to the router.** For an attempt through a lane's breaker on a
provider registered with the router (whose name reads back as itself, as every name
given as text does), from a ledger whose totals started at dates, at clock readings
that are dates:
* let through, it feeds the router exactly a start for the provider at its start and,
  once its call has settled, one end under the same name, at its end, reporting the
  latency, and on success the tokens (none counting as zero) and their cost at the
  provider's price; a failure reports no cost;
* refused, it reports nothing;
and under any interleaving of calls, each started once and ended once, once all have
ended, every name's count in flight is back where it was, its window of response
times gained one sample per call started (the last 100 kept), and the ledger gained
one usage record per call that cost something (the last 1000 kept). -/
theorem attempts_report_balanced :
    (∀ (s : Service) (d : LaneDecision String) (a : Answerer) (question : String)
        (deadline : Option Deadline) (elapsed : Float) (b : Breaker.Breaker) (r : Router) (p : Provider),
      s.breakers.find? (Key.ofString d.lane.name) = some b → (b.allow s.clock).value = .ok () →
      s.router = some r → (r.providers.get d.provider s.now).1 = some p →
      (Key.ofString p.name).text = p.name → r.ledger.Dated →
      (Clock.clip? (s.guarded d a question deadline elapsed).2.1.now).isSome →
      let g := s.guarded d a question deadline elapsed
      g.2.1.router = some (({ r with providers := (r.providers.get d.provider s.now).2 } : Router).feed
        (attemptFeedback p (r.ledger.costPer1k p) s.now g.2.1.now g.1)) ∧
      Interleaves [] (attemptFeedback p (r.ledger.costPer1k p) s.now g.2.1.now g.1)) ∧
    (∀ (s : Service) (d : LaneDecision String) (a : Answerer) (question : String)
        (deadline : Option Deadline) (elapsed : Float) (b : Breaker.Breaker) (f : Fault),
      s.breakers.find? (Key.ofString d.lane.name) = some b → (b.allow s.clock).value = .error f →
      (s.guarded d a question deadline elapsed).2.1.router = s.router ∧
        (s.guarded d a question deadline elapsed).2.1.sent = s.sent) ∧
    (∀ (r : Router) (fs : List Feedback) (n : String), Interleaves [] fs →
      (∀ f ∈ fs, (Clock.clip? f.time).isSome) → r.ledger.Dated →
      (r.balancer.samples n).length ≤ latencyWindow → r.ledger.records.length ≤ maxUsageRecords →
      (r.feed fs).balancer.inFlight n = r.balancer.inFlight n ∧
        ((r.feed fs).balancer.samples n).length =
          min latencyWindow ((r.balancer.samples n).length + fs.countP (Feedback.starts n)) ∧
        (r.feed fs).ledger.records.length =
          min maxUsageRecords (r.ledger.records.length + fs.countP Feedback.charges)) := by
  refine ⟨?_, ?_, ?_⟩
  · intro s d a question deadline elapsed b r p hb hallow hr hp hname hl hend
    dsimp only
    obtain ⟨hrouter, -, hnow, hresult⟩ := guarded_admitted s d a question deadline elapsed hb hallow
    rw [hnow] at hend
    -- a fault the breaker could not log is still a failure, and reports as one
    have hsame : ∀ startedAt endedAt, attemptFeedback p (r.ledger.costPer1k p) startedAt endedAt
        (s.guarded d a question deadline elapsed).1 = attemptFeedback p (r.ledger.costPer1k p) startedAt endedAt
        ((s.admitted b).timedAttempt d a question deadline elapsed).1 := by
      intro startedAt endedAt
      rcases hresult hend with h | ⟨f, hf, -, hg⟩
      · rw [h]
      · rw [hf, hg]
        exact attemptFeedback_error p _ startedAt endedAt _ _
    rw [hrouter, hnow, hsame]
    exact ⟨timedAttempt_reports d a question deadline elapsed hr hp hl hend,
      attemptFeedback_interleaves p hname _ _ _ _⟩
  · intro s d a question deadline elapsed b f hb hallow
    obtain ⟨-, hrouter, hsent, -⟩ := guarded_refused s d a question deadline elapsed hb hallow
    exact ⟨hrouter, hsent⟩
  · intro r fs n h hd hl hw hlen
    exact Router.feed_balanced r h n hd hl hw hlen

/-- Two calls to one provider in flight at once, both costing something, reported at
dates: the first to start is not the first to end. -/
theorem two_overlapping_calls_balanced :
    let r : Router := { ledger := Ledger.create {} [] 1773144000000 }
    let c : CallReport := ⟨Key.ofString "p", some (.bool true), some (.num 5), .num 10, .num 0.02⟩
    let fs : List Feedback :=
      [.start "p" 1773144000000, .start "p" 1773144000100, .finish c 1773144000500, .finish c 1773144001000]
    Interleaves [] fs ∧ (∀ f ∈ fs, (Clock.clip? f.time).isSome) ∧ r.ledger.Dated ∧
      ((r.feed fs).balancer.inFlight "p" = r.balancer.inFlight "p" ∧
        ((r.feed fs).balancer.samples "p").length =
          min latencyWindow ((r.balancer.samples "p").length + fs.countP (Feedback.starts "p")) ∧
        (r.feed fs).ledger.records.length =
          min maxUsageRecords (r.ledger.records.length + fs.countP Feedback.charges)) := by
  intro r c fs
  have hname : c.providerName.text = "p" := by decide
  have hrun : Interleaves [] fs := by
    refine .start (.start (.finish ?_ ?_))
    · rw [hname]
      decide
    · rw [hname]
      refine .finish ?_ ?_
      · rw [hname]
        decide
      · rw [hname]
        exact .done
  have hd : ∀ f ∈ fs, (Clock.clip? f.time).isSome := by decide
  have hl : r.ledger.Dated := by decide
  exact ⟨hrun, hd, hl, attempts_report_balanced.2.2 r fs "p" hrun hd hl (by decide) (by decide)⟩

end Service

end LaneGate
