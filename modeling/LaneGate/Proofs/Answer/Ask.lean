import LaneGate.Proofs.Answer.Attempts
import LaneGate.Proofs.Routing.Route
/-!
# Asking a question

`Service.ask` trims the question, picks its lane by the policy, calls the lane's
answerer through the lane's breaker with retries, and judges what came back: a model
answer that passes the confidence gate is the answer, anything else is replaced by
the fallback, and the outcome is tallied. Here one question is followed from start to
end, through the run of its lane call's attempts (`Service.LaneRun`).

## What is proved

* `Confidence.Policy.evaluate_eq_none_iff`: what the confidence gate lets through.
* `Service.Reached.wired`: every lane with an answerer has a breaker (`Service.Wired`)
  in a new service (`Service.create_wired`) and after any questions, clock moves, new
  runbooks and routed requests (`Service.Wired.ask`, `Service.Wired.route`).
* `Service.ask_attempts_fail_fast`: a question's attempts are bounded, ask the model
  only when the breaker lets them through and the deadline has not passed, stop at a
  success, a configuration fault or a refusal, and (at dates) are recorded on the
  breaker with the model call's result; the outcome tallied is the last attempt's.
* `Service.ask_answers_or_rejects`: a question is rejected only when blank or for a
  configuration fault, which leaves the tally as it was; otherwise it is answered on
  the policy's lane, by a model answer that passed the gate or by the fallback.

## Honest scope

Past the last date (`|t| > 8.64e15` ms) the breaker counts an attempt's end and then
fails to record it, its event having no date: the attempt fails with that fault
instead of its own, and the loop retries it. So there a success is asked for again
(`Service.undated_success_asked_again`) and a configuration fault does not reject the
question (`Service.undated_configuration_fault_answered`). The theorems describe
attempts by their results through the breaker, which at dates are the model calls'
results.
-/

namespace LaneGate

namespace Confidence

/-- The checks on the text pass: trimmed and lowered, it is not empty, no shorter
than the minimum (in UTF-16 units), and holds none of the markers. -/
theorem Policy.textReason_eq_none_iff (p : Policy) (answer : String) :
    p.textReason answer = none ↔
      (Text.lower (Text.trim answer)).isEmpty = false ∧
      ¬ (Text.lengthOf (Text.lower (Text.trim answer))).toFloat < p.minAnswerChars ∧
      ∀ m ∈ p.markers,
        Text.occursIn (Text.ofString m).units (Text.ofString (Text.lower (Text.trim answer))).units = false := by
  unfold Policy.textReason
  dsimp only
  by_cases he : (Text.lower (Text.trim answer)).isEmpty = true
  · rw [if_pos he, he]
    simp
  · rw [if_neg he]
    by_cases hs : (Text.lengthOf (Text.lower (Text.trim answer))).toFloat < p.minAnswerChars
    · rw [if_pos hs]
      simp [hs]
    · rw [if_neg hs]
      by_cases hm : p.markers.any (fun m => Text.occursIn (Text.ofString m).units
          (Text.ofString (Text.lower (Text.trim answer))).units) = true
      · -- the answer holds a marker
        rw [if_pos hm]
        obtain ⟨m, hmem, hocc⟩ := List.any_eq_true.1 hm
        refine ⟨(fun h => nomatch h), fun ⟨_, _, hall⟩ => ?_⟩
        rw [hall m hmem] at hocc
        exact absurd hocc Bool.false_ne_true
      · rw [if_neg hm]
        simp only [Bool.not_eq_true] at he hm
        refine ⟨fun _ => ⟨he, hs, fun m hmem => ?_⟩, fun _ => rfl⟩
        simpa using List.any_eq_false.1 hm m hmem

/-- **What the gate lets through**: an answer that, trimmed and lowered, is not empty,
is no shorter than the minimum (in UTF-16 units), holds none of the markers, and on
the grounded lane comes with a citation. -/
theorem Policy.evaluate_eq_none_iff (p : Policy) (answer : String) (citations : Nat) (lane : Option Lane) :
    p.evaluate answer citations lane = none ↔
      (Text.lower (Text.trim answer)).isEmpty = false ∧
      ¬ (Text.lengthOf (Text.lower (Text.trim answer))).toFloat < p.minAnswerChars ∧
      (∀ m ∈ p.markers,
        Text.occursIn (Text.ofString m).units (Text.ofString (Text.lower (Text.trim answer))).units = false) ∧
      (lane = some .onDeviceRag → citations ≠ 0) := by
  have hsplit : p.evaluate answer citations lane = none ↔
      p.textReason answer = none ∧ (lane = some .onDeviceRag → citations ≠ 0) := by
    unfold Policy.evaluate
    cases p.textReason answer with
    | some r => simp
    | none => simp
  rw [hsplit, textReason_eq_none_iff, and_assoc, and_assoc]

end Confidence

namespace Service

/-! ### The verdict on a lane call -/

section judge

variable (s : Service) (question : String) (lane : Lane)

/-- A model answer is trusted exactly when it passes the gate; otherwise the fallback
answers. -/
theorem judge_ok (m : Attempt) :
    s.judge question lane (.ok m) =
      if s.confidence.evaluate m.answer.toString m.citations.length (some lane) = none then (.ok, m)
      else (.fallback, s.fallback question) := by
  unfold judge
  dsimp only
  cases s.confidence.evaluate m.answer.toString m.citations.length (some lane) <;> simp

theorem judge_circuitOpen (k : Key) (ms : Json) :
    s.judge question lane (.error (.circuitOpen k ms)) = (.circuitOpen, s.fallback question) := rfl

theorem judge_laneCallFailed (n : Nat) (f : Fault) :
    s.judge question lane (.error (.laneCallFailed n f)) = (.error, s.fallback question) := rfl

end judge

/-! ### A question, step by step -/

section ask

variable (s : Service) (question : String) (hint : Option String)

theorem ask_of_empty (hq : (Text.trim question).isEmpty = true) :
    s.ask question hint = (.error emptyQuestion, s) := by
  unfold ask
  rw [if_pos hq]

theorem ask_of_no_answerer (hq : (Text.trim question).isEmpty = false)
    (ha : s.answererFor (s.policy.decide hint).lane = none) :
    s.ask question hint =
      (.error (.configuration ("No answerer configured for lane '" ++ (s.policy.decide hint).lane.name ++ "'")),
        s) := by
  unfold ask
  rw [if_neg (by rw [hq]; exact Bool.false_ne_true)]
  dsimp only
  rw [ha]

theorem ask_of_lane_error {a : Answerer} {f : Fault} {s' : Service} (hq : (Text.trim question).isEmpty = false)
    (ha : s.answererFor (s.policy.decide hint).lane = some a)
    (hc : s.callLane (s.policy.decide hint) a (Text.trim question) = (.error f, s')) :
    s.ask question hint = (.error f, s') := by
  unfold ask
  rw [if_neg (by rw [hq]; exact Bool.false_ne_true)]
  dsimp only
  rw [ha]
  dsimp only
  rw [hc]

/-- A lane call that answered ends the question with the verdict on it, tallied. -/
theorem ask_of_lane_ok {a : Answerer} {called : Except Fault Attempt} {s' : Service} {o : Outcome}
    {att : Attempt} (hq : (Text.trim question).isEmpty = false)
    (ha : s.answererFor (s.policy.decide hint).lane = some a)
    (hc : s.callLane (s.policy.decide hint) a (Text.trim question) = (.ok called, s'))
    (hj : s'.judge (Text.trim question) (s.policy.decide hint).lane called = (o, att)) :
    s.ask question hint =
      (.ok ⟨att.answer, att.citations, (s.policy.decide hint).lane, att.provider, o != .ok,
          Decimal.maxOf 0 (s'.now - s.now), att.tokenEstimate, att.charEstimate⟩,
        { s' with tally := s'.tally.record (s.policy.decide hint).lane o (Decimal.maxOf 0 (s'.now - s.now)) }) := by
  unfold ask
  rw [if_neg (by rw [hq]; exact Bool.false_ne_true)]
  dsimp only
  rw [ha]
  dsimp only
  rw [hc]
  dsimp only
  rw [hj]

end ask

/-! ### A scripted lane -/

/-- The grounded lane's answerer, with a model that always gives `reply`. -/
def scriptedAnswerer (reply : Prepared) : Answerer :=
  ⟨.onDeviceRag, .prepared "local" [reply], .num 5, {}⟩

/-- A service with its clock at `now`, whose grounded lane (the policy's choice for a
question with no hint) has the scripted answerer and a breaker with the default
thresholds; failed attempts are retried without a pause. -/
def scripted (now : Float) (reply : Prepared) : Service where
  config := { backoffBaseMs := .num 0 }
  policy := ⟨false, "local", "cloud"⟩
  answerers := [scriptedAnswerer reply]
  grounding := .none
  confidence := Confidence.Policy.make
  now := now
  breakers := ⟨[Breaker.Breaker.create
    ⟨some (Json.ofString "on_device_rag"), 3, 2, 60000, .standard, Nat.zero_lt_succ 2, Nat.zero_lt_two⟩ now]⟩
  tables := {}

/-- A confident answer. -/
def restartAnswer : Prepared where
  result := .ok (Text.ofString "Restart the service and verify health.", none, none)

/-! ### The attempts of a question -/

/-- The question ends in the state its lane call's run ended in, with at most its
tally moved on. -/
theorem ask_state_of_callLane {s : Service} {question : String} {hint : Option String} {a : Answerer}
    {x : Except Fault (Except Fault Attempt)} {s' : Service} (hq : (Text.trim question).isEmpty = false)
    (ha : s.answererFor (s.policy.decide hint).lane = some a)
    (hc : s.callLane (s.policy.decide hint) a (Text.trim question) = (x, s')) :
    ∃ tally, (s.ask question hint).2 = { s' with tally } := by
  rcases x with f | called
  · rw [ask_of_lane_error s question hint hq ha hc]
    exact ⟨s'.tally, rfl⟩
  · rcases hj : s'.judge (Text.trim question) (s.policy.decide hint).lane called with ⟨o, att⟩
    rw [ask_of_lane_ok s question hint hq ha hc hj]
    exact ⟨_, rfl⟩

/-- **A question's attempts are bounded and fail fast on the lane's breaker.** For a
question that is not blank, on a lane with an answerer and a breaker, the attempts
its lane call makes (its run):
* number at most the attempts allowed, the floor of `maxRetries + 1` and at least 1;
* each begin before the deadline, ask the lane's model once when the breaker lets
  them through and never otherwise, and fail with the breaker's refusal when it does
  not; so the model is asked once per attempt let through in all;
* stop at the first attempt that succeeds, fails with a configuration fault, or is
  refused: every attempt but the last failed with a fault the loop retries;
* when the router's ledger keeps its totals from dates and every attempt ends at a
  date, have the model call's result (its answer, its fault, the timeout's fault or
  the deadline's reason), which the lane's breaker records as its failure policy says;
and the outcome tallied for an answered question is `circuit_open` exactly when the
last attempt was refused, `error` exactly when no attempt was made or the last one
failed with a fault the loop retries (attempts ran out, or the deadline passed), and
`ok` or `fallback` exactly when the last attempt succeeded. -/
theorem ask_attempts_fail_fast (s : Service) (question : String) (hint : Option String) {a : Answerer}
    (hq : (Text.trim question).isEmpty = false)
    (ha : s.answererFor (s.policy.decide hint).lane = some a)
    (hb : (s.breakers.find? (Key.ofString (s.policy.decide hint).lane.name)).isSome) :
    ∃ ts r s', s.LaneRun (s.policy.decide hint) a (Text.trim question) ts r s' ∧
      ts.length ≤ attemptsAllowed (Primitive.add s.config.maxRetries (.num 1)).toNumber ∧
      (∀ t ∈ ts, Deadline.passed (deadlineOf s.config) t.startedAt = false ∧
        t.after.usedBy a.lane =
          t.before.usedBy a.lane + (if t.before.admits (s.policy.decide hint).lane then 1 else 0) ∧
        (t.before.admits (s.policy.decide hint).lane = false → ∃ k ms, t.result = .error (.circuitOpen k ms))) ∧
      (s.ask question hint).2.usedBy a.lane =
        s.usedBy a.lane + ts.countP (·.before.admits (s.policy.decide hint).lane) ∧
      (∀ t ∈ ts.dropLast, ∃ f, t.result = .error f ∧ retryable f = true) ∧
      (s.RouterDated → (∀ t ∈ ts, Breaker.Breaker.isDate t.after.now = true) →
        ∀ t ∈ ts, ∀ b, t.before.breakers.find? (Key.ofString (s.policy.decide hint).lane.name) = some b →
          (b.allow t.before.clock).value = .ok () →
          t.result = (t.before.answerWith a (Text.trim question) (deadlineOf s.config) t.startedAt).1 ∧
          t.after.breakers = (t.before.breakers.update (b.allow t.before.clock).breaker).update
            ((b.allow t.before.clock).breaker.complete t.after.now t.result).breaker) ∧
      (∀ ans, (s.ask question hint).1 = .ok ans →
        ∃ o lat, (s.ask question hint).2.tally = s.tally.record (s.policy.decide hint).lane o lat ∧
          (o = .circuitOpen ↔ ∃ t k ms, ts.getLast? = some t ∧ t.result = .error (.circuitOpen k ms)) ∧
          (o = .error ↔ ts.getLast? = none ∨
            ∃ t f, ts.getLast? = some t ∧ t.result = .error f ∧ retryable f = true) ∧
          (o = .ok ∨ o = .fallback ↔ ∃ t m, ts.getLast? = some t ∧ t.result = .ok m)) := by
  obtain ⟨ts, rr, s', hrun, hcall⟩ := callLane_run s (s.policy.decide hint) a (Text.trim question) hb
  obtain ⟨-, -, halike, hused⟩ := hrun.keeps
  obtain ⟨tally, hstate⟩ := ask_state_of_callLane hq ha hcall
  refine ⟨ts, rr.result, s', hrun, hrun.length_le, fun t ht => ⟨(hrun.attempt ht).2, ?_, hrun.refused hb t ht⟩,
    by rw [hstate]; exact hused, hrun.retried, fun hr hd => hrun.dated hr hd, ?_⟩
  · obtain ⟨hatt, hp⟩ := hrun.attempt ht
    have hstep := usedBy_guarded t.before (s.policy.decide hint) a (Text.trim question) _ t.startedAt hp
    rw [hatt] at hstep
    exact hstep
  · intro ans hans
    rcases hrun.ends with ⟨t, m, hlast, hres, hl⟩ | ⟨t, m, hlast, hres, hl⟩ | ⟨t, k, ms, hlast, hres, hl⟩ |
      ⟨hlast, n, f, hl⟩
    · rw [hl] at hcall
      rcases hj : s'.judge (Text.trim question) (s.policy.decide hint).lane (.ok m) with ⟨o, att⟩
      have ho : o = .ok ∨ o = .fallback := by
        rw [judge_ok] at hj
        split at hj <;> simp_all
      rw [ask_of_lane_ok s question hint hq ha hcall hj]
      refine ⟨o, _, by rw [halike.tally], ?_⟩
      rcases ho with rfl | rfl <;> simp [hlast, hres]
    · rw [hl] at hcall
      rw [ask_of_lane_error s question hint hq ha hcall] at hans
      cases hans
    · rw [hl] at hcall
      rw [ask_of_lane_ok s question hint hq ha hcall (judge_circuitOpen _ _ _ k ms)]
      refine ⟨.circuitOpen, _, by rw [halike.tally], ?_⟩
      simp [hlast, hres, retryable]
    · rw [hl] at hcall
      rw [ask_of_lane_ok s question hint hq ha hcall (judge_laneCallFailed _ _ _ n f)]
      refine ⟨.error, _, by rw [halike.tally], ?_⟩
      rcases hlast with hnone | ⟨t, g, hlast, hres, hretry⟩
      · simp [hnone]
      · -- the last fault is one the loop retries: not a refusal
        have hopen : ∀ k ms, g ≠ .circuitOpen k ms := by
          rintro k ms rfl
          exact absurd hretry (by simp [retryable])
        simp [hlast, hres, hretry, hopen]

/-- A question at a date on the scripted lane: its attempts are bounded, and the model
is asked once per attempt let through. -/
theorem dated_question_attempts_bounded :
    let s := scripted 1773144000000 restartAnswer
    ∃ ts r s', s.LaneRun (s.policy.decide none) (scriptedAnswerer restartAnswer) (Text.trim "why?") ts r s' ∧
      ts.length ≤ attemptsAllowed (Primitive.add s.config.maxRetries (.num 1)).toNumber ∧
      (s.ask "why?" none).2.usedBy .onDeviceRag =
        s.usedBy .onDeviceRag + ts.countP (·.before.admits .onDeviceRag) := by
  intro s
  -- the trimmed question is read as characters, never encoded back into a text
  have hq : (Text.trim "why?").isEmpty = false := by
    rw [String.isEmpty_eq_false_iff, Text.trim, Ne, ← String.toList_inj, String.toList_ofList]
    cbv
    exact List.cons_ne_nil _ _
  obtain ⟨ts, r, s', hrun, hlen, -, hused, -⟩ :=
    ask_attempts_fail_fast s "why?" none (a := scriptedAnswerer restartAnswer) hq rfl (by cbv)
  exact ⟨ts, r, s', hrun, hlen, hused⟩

/-- Past the last date, a model call that succeeds is made again: the breaker cannot
date the success it records, the attempt fails with that fault, and the loop retries
it. -/
theorem undated_success_asked_again :
    let s := scripted 8640000000000001 restartAnswer
    (s.answerWith (scriptedAnswerer restartAnswer) "why?" none 0).1.isOk = true ∧
      (s.ask "why?" none).2.usedBy .onDeviceRag = 2 := by
  decide +kernel

/-! ### What a question is answered with -/

theorem answererFor_some {s : Service} {lane : Lane} {a : Answerer} (h : s.answererFor lane = some a) :
    a ∈ s.answerers ∧ a.lane = lane := by
  unfold answererFor at h
  exact ⟨List.mem_of_find?_eq_some h, beq_iff_eq.1 (List.find?_some (p := fun x : Answerer => x.lane == lane) h)⟩

/-- On a lane whose answerer has its breaker, as every answerer's lane has in a wired
service, the lane call ends as its run does. -/
theorem callLane_run_of_answerer {s : Service} {d : LaneDecision String} {a : Answerer} (question : String)
    (hb : ∀ a ∈ s.answerers, (s.breakers.find? (Key.ofString a.lane.name)).isSome)
    (ha : s.answererFor d.lane = some a) :
    (s.breakers.find? (Key.ofString d.lane.name)).isSome ∧
      ∃ ts rr s', s.LaneRun d a question ts rr.result s' ∧ s.callLane d a question = (laneResult rr, s') := by
  obtain ⟨hmem, hlane⟩ := answererFor_some ha
  have hbreaker := hb a hmem
  rw [hlane] at hbreaker
  exact ⟨hbreaker, callLane_run s d a question hbreaker⟩

/-- A lane call rejects only with a configuration fault. -/
theorem laneResult_error {rr : Retried Attempt} {f : Fault} (h : laneResult rr = .error f) :
    ∃ m, f = .configuration m := by
  unfold laneResult at h
  split at h
  · cases h
  · cases h
    exact ⟨_, rfl⟩
  · cases h
  · cases h

/-- **Only the caller's fault or the setup's rejects a question**, and a rejection
leaves the tally as it was: an empty question changes nothing, and any other question
is rejected only with a configuration fault. -/
theorem ask_error_cases {s : Service} {question : String} {hint : Option String} {f : Fault}
    (hb : ∀ a ∈ s.answerers, (s.breakers.find? (Key.ofString a.lane.name)).isSome)
    (h : (s.ask question hint).1 = .error f) :
    ((Text.trim question).isEmpty = true ∧ f = emptyQuestion ∧ (s.ask question hint).2 = s) ∨
      ((Text.trim question).isEmpty = false ∧ (∃ m, f = .configuration m) ∧
        (s.ask question hint).2.tally = s.tally) := by
  cases hq : (Text.trim question).isEmpty with
  | true =>
    rw [ask_of_empty s question hint hq] at h ⊢
    cases h
    exact .inl ⟨rfl, rfl, rfl⟩
  | false =>
    refine .inr ⟨rfl, ?_⟩
    rcases ha : s.answererFor (s.policy.decide hint).lane with _ | a
    · rw [ask_of_no_answerer s question hint hq ha] at h ⊢
      cases h
      exact ⟨⟨_, rfl⟩, rfl⟩
    · obtain ⟨-, ts, rr, s', hrun, hcall⟩ := callLane_run_of_answerer (Text.trim question) hb ha
      obtain ⟨-, -, halike, -⟩ := hrun.keeps
      rcases hl : laneResult rr with g | called
      · rw [hl] at hcall
        rw [ask_of_lane_error s question hint hq ha hcall] at h ⊢
        cases h
        exact ⟨laneResult_error hl, halike.tally⟩
      · rw [hl] at hcall
        rcases hj : s'.judge (Text.trim question) (s.policy.decide hint).lane called with ⟨o, att⟩
        rw [ask_of_lane_ok s question hint hq ha hcall hj] at h
        cases h

/-- Once its lane is called, a question is rejected exactly as the call is. -/
theorem ask_error_iff {s : Service} {question : String} {hint : Option String} {a : Answerer}
    {x : Except Fault (Except Fault Attempt)} {s' : Service} (hq : (Text.trim question).isEmpty = false)
    (ha : s.answererFor (s.policy.decide hint).lane = some a)
    (hc : s.callLane (s.policy.decide hint) a (Text.trim question) = (x, s')) (f : Fault) :
    (s.ask question hint).1 = .error f ↔ x = .error f := by
  rcases x with g | called
  · rw [ask_of_lane_error s question hint hq ha hc]
    simp only [Except.error.injEq]
  · rcases hj : s'.judge (Text.trim question) (s.policy.decide hint).lane called with ⟨o, att⟩
    rw [ask_of_lane_ok s question hint hq ha hc hj]
    exact ⟨nofun, nofun⟩

/-- **An answered question** is answered on the policy's lane; and unless the fallback
answered, with the last attempt's answer, which succeeded and passed the gate. -/
theorem ask_answered {s : Service} {question : String} {hint : Option String} {a : Answerer}
    {ts : List (Try Service Attempt)} {rr : Retried Attempt} {s' : Service}
    (hq : (Text.trim question).isEmpty = false) (ha : s.answererFor (s.policy.decide hint).lane = some a)
    (hrun : s.LaneRun (s.policy.decide hint) a (Text.trim question) ts rr.result s')
    (hc : s.callLane (s.policy.decide hint) a (Text.trim question) = (laneResult rr, s'))
    {ans : Answer} (hans : (s.ask question hint).1 = .ok ans) :
    ans.lane = (s.policy.decide hint).lane ∧
      (ans.fallbackUsed = false → ∃ t m, ts.getLast? = some t ∧ t.result = .ok m ∧
        ans.text = m.answer ∧ ans.citations = m.citations ∧ ans.provider = m.provider ∧
        ans.tokenEstimate = m.tokenEstimate ∧ ans.charEstimate = m.charEstimate ∧
        s'.confidence.evaluate m.answer.toString m.citations.length (some (s.policy.decide hint).lane) = none) := by
  rcases hrun.ends with ⟨t, m, hlast, hres, hl⟩ | ⟨t, m, -, -, hl⟩ | ⟨t, k, ms, -, -, hl⟩ | ⟨-, n, g, hl⟩ <;>
    rw [hl] at hc
  · -- a success: the gate decides whether it is the answer
    rcases hj : s'.judge (Text.trim question) (s.policy.decide hint).lane (.ok m) with ⟨o, att⟩
    rw [ask_of_lane_ok s question hint hq ha hc hj] at hans
    cases hans
    refine ⟨rfl, fun hfb => ?_⟩
    rw [judge_ok] at hj
    split at hj
    · rename_i hpass
      obtain ⟨rfl, rfl⟩ := Prod.mk.inj hj
      exact ⟨t, m, hlast, hres, rfl, rfl, rfl, rfl, rfl, hpass⟩
    · obtain ⟨rfl, rfl⟩ := Prod.mk.inj hj
      cases hfb
  · rw [ask_of_lane_error s question hint hq ha hc] at hans
    cases hans
  · rw [ask_of_lane_ok s question hint hq ha hc (judge_circuitOpen _ _ _ k ms)] at hans
    cases hans
    exact ⟨rfl, nofun⟩
  · rw [ask_of_lane_ok s question hint hq ha hc (judge_laneCallFailed _ _ _ n g)] at hans
    cases hans
    exact ⟨rfl, nofun⟩

/-! ### Every lane with an answerer has a breaker -/

/-- Every lane with an answerer has a breaker: so `create` makes a service
(`create_wired`), and so every question, clock move, new runbook and routed request
leaves it (`Reached.wired`). -/
def Wired (s : Service) : Prop :=
  ∀ a ∈ s.answerers, (s.breakers.find? (Key.ofString a.lane.name)).isSome

/-- A service stays wired when its answerers stay and its breakers are kept. -/
theorem Wired.of_keeps {s s' : Service} (h : s.Wired) (ha : s'.answerers = s.answerers)
    (hk : s.breakers.Keeps s'.breakers) : s'.Wired := by
  intro a hmem
  rw [ha] at hmem
  exact hk _ (h a hmem)

/-- The lane breakers a new service obtains, one per answerer in turn: every name that
had a breaker keeps one, and every answerer's lane gets one. -/
theorem foldlM_obtain_isSome (config : PipelineConfig) (now : Float) :
    ∀ (as : List Answerer) (reg reg' : Breaker.Registry),
      as.foldlM (fun (reg : Breaker.Registry) a => do
          let (_, reg) ← reg.obtain (Key.ofString a.lane.name) (laneBreakerConfig config) now
          pure reg) reg = .ok reg' →
        reg.Keeps reg' ∧ ∀ a ∈ as, (reg'.find? (Key.ofString a.lane.name)).isSome
  | [], reg, reg', h => by
    cases h
    exact ⟨.refl reg, fun _ ha => nomatch ha⟩
  | a :: as, reg, reg', h => by
    have hmake : ∀ c, laneBreakerConfig config (Key.ofString a.lane.name) = .ok c →
        (c.key == Key.ofString a.lane.name) = true := by
      intro c hc
      unfold laneBreakerConfig Breaker.Config.make at hc
      dsimp only at hc
      split at hc
      · cases hc
      · cases hc
      · split at hc
        · cases hc
        · cases hc
          exact Key.same_ofString a.lane.name
    rw [List.foldlM_cons] at h
    rcases hob : reg.obtain (Key.ofString a.lane.name) (laneBreakerConfig config) now with f | ⟨b, reg₁⟩
    · rw [hob] at h
      cases h
    · rw [hob] at h
      obtain ⟨hname, hkeep⟩ := Breaker.Registry.obtain_isSome hmake hob
      obtain ⟨hkeep', hrest⟩ := foldlM_obtain_isSome config now as reg₁ reg' h
      refine ⟨hkeep.trans hkeep', fun a' ha' => ?_⟩
      rcases List.mem_cons.1 ha' with rfl | ha'
      · exact hkeep' _ hname
      · exact hrest a' ha'

/-- **A new service has a breaker for every lane with an answerer.** -/
theorem create_wired {config : PipelineConfig} {policy : LanePolicy String} {answerers : List Answerer}
    {grounding : Grounding} {confidence : Confidence.Policy} {router : Option Router} {tables : Store.Tables}
    {breakers : Breaker.Registry} {secrets : List Text} {now : Float} {s : Service}
    (h : create config policy answerers grounding confidence router tables breakers secrets now = .ok s) :
    s.Wired := by
  unfold create at h
  rcases hfold : (Lane.all.filterMap fun l => answerers.find? (·.lane == l)).foldlM
    (fun (reg : Breaker.Registry) a => do
      let (_, reg) ← reg.obtain (Key.ofString a.lane.name) (laneBreakerConfig config) now
      pure reg) breakers with f | reg'
  · simp only [hfold] at h
    cases h
  · simp only [hfold] at h
    cases h
    exact (foldlM_obtain_isSome config now _ breakers reg' hfold).2

/-- **A question keeps a service wired**: its lane call keeps every breaker, and
nothing else of a question touches them. -/
theorem Wired.ask {s : Service} (h : s.Wired) (question : String) (hint : Option String) :
    (s.ask question hint).2.Wired := by
  cases hq : (Text.trim question).isEmpty
  · rcases ha : s.answererFor (s.policy.decide hint).lane with _ | a
    · rw [ask_of_no_answerer s question hint hq ha]
      exact h
    · obtain ⟨-, ts, rr, s', hrun, hcall⟩ := callLane_run_of_answerer (Text.trim question) h ha
      obtain ⟨-, hkeeps, halike, -⟩ := hrun.keeps
      obtain ⟨tally, hs⟩ := ask_state_of_callLane hq ha hcall
      rw [hs]
      exact h.of_keeps halike.answerers hkeeps
  · rw [ask_of_empty s question hint hq]
    exact h

/-- A routed request keeps a service wired: routing only looks at breakers. -/
theorem Wired.route {s : Service} (h : s.Wired) (req : RouteRequest) : (s.route req).2.Wired := by
  unfold Service.route
  rcases hr : s.router with _ | r
  · exact h
  · have hk := Router.keeps_route r s.breakers req s.now
    rcases hroute : r.route s.breakers req s.now with ⟨out, r', reg, evs⟩
    rw [hroute] at hk
    dsimp only
    rw [hroute]
    cases out <;> exact h.of_keeps rfl hk

/-- The services a new service becomes through questions, the passing of time, new
runbooks and routed requests. -/
inductive Reached : Service → Prop
  | create {config : PipelineConfig} {policy : LanePolicy String} {answerers : List Answerer}
      {grounding : Grounding} {confidence : Confidence.Policy} {router : Option Router}
      {tables : Store.Tables} {breakers : Breaker.Registry} {secrets : List Text} {now : Float} {s : Service} :
      create config policy answerers grounding confidence router tables breakers secrets now = .ok s → Reached s
  | ask {s : Service} (question : String) (hint : Option String) : Reached s → Reached (s.ask question hint).2
  | advance {s : Service} (ms : Float) : Reached s → Reached (s.advance ms)
  | ingest {s : Service} (source : String) (contents : List String) :
      Reached s → Reached (s.ingest source contents).2
  | route {s : Service} (req : RouteRequest) : Reached s → Reached (s.route req).2

/-- **Every service reached is wired**: whatever questions, clock moves, runbooks and
routed requests came after its creation, each lane with an answerer has its breaker. -/
theorem Reached.wired {s : Service} (h : s.Reached) : s.Wired := by
  induction h with
  | create hc => exact create_wired hc
  | ask question hint _ ih => exact ih.ask question hint
  | advance ms _ ih => exact ih
  | ingest source contents _ ih =>
    unfold Service.ingest
    split
    · exact ih
    · exact ih
  | route req _ ih => exact ih.route req

/-- **A question is answered by a model answer that passed the gate, or by the
fallback; it is rejected only for the caller's fault or the setup's.** For a service
whose lanes with answerers all have breakers (every service reached from `create`,
`Reached.wired`):
* a question is rejected as invalid exactly when it is blank once trimmed, and then
  nothing changes;
* a question on a lane with no answerer is rejected as a configuration fault, and
  nothing changes;
* every rejection is one of these two, or a configuration fault, and leaves the tally
  as it was;
* on a lane with an answerer, the question is rejected with a configuration fault
  exactly when an attempt of its lane call ended with it; at dates (the router's
  ledger keeping its totals from dates, every attempt ending at a date) the attempts
  the breaker lets through end with the model call's own result;
* an answered question is answered on the policy's lane, and unless the fallback was
  used, with the answer, citations, provider and estimates of the last attempt, which
  succeeded, and whose answer, trimmed and lowered, is not empty, no shorter than the
  minimum (in UTF-16 units), holds none of the markers, and on the grounded lane cites
  something. -/
theorem ask_answers_or_rejects (s : Service) (question : String) (hint : Option String)
    (hb : ∀ a ∈ s.answerers, (s.breakers.find? (Key.ofString a.lane.name)).isSome) :
    ((∃ m hs, (s.ask question hint).1 = .error (.inputValidation m hs)) ↔ (Text.trim question).isEmpty = true) ∧
    ((Text.trim question).isEmpty = true → (s.ask question hint).2 = s) ∧
    ((Text.trim question).isEmpty = false → s.answererFor (s.policy.decide hint).lane = none →
      ∃ m, s.ask question hint = (.error (.configuration m), s)) ∧
    (∀ f, (s.ask question hint).1 = .error f →
      (f = emptyQuestion ∨ ∃ m, f = .configuration m) ∧ (s.ask question hint).2.tally = s.tally) ∧
    ∀ a, (Text.trim question).isEmpty = false → s.answererFor (s.policy.decide hint).lane = some a →
      ∃ ts r s', s.LaneRun (s.policy.decide hint) a (Text.trim question) ts r s' ∧
        (∀ m, (s.ask question hint).1 = .error (.configuration m) ↔
          ∃ t ∈ ts, t.result = .error (.configuration m)) ∧
        (s.RouterDated → (∀ t ∈ ts, Breaker.Breaker.isDate t.after.now = true) →
          ∀ t ∈ ts, t.before.admits (s.policy.decide hint).lane = true →
            t.result = (t.before.answerWith a (Text.trim question) (deadlineOf s.config) t.startedAt).1) ∧
        ∀ ans, (s.ask question hint).1 = .ok ans → ans.lane = (s.policy.decide hint).lane ∧
          (ans.fallbackUsed = false → ∃ t m, ts.getLast? = some t ∧ t.result = .ok m ∧
            ans.text = m.answer ∧ ans.citations = m.citations ∧ ans.provider = m.provider ∧
            ans.tokenEstimate = m.tokenEstimate ∧ ans.charEstimate = m.charEstimate ∧
            (Text.lower (Text.trim m.answer.toString)).isEmpty = false ∧
            ¬ (Text.lengthOf (Text.lower (Text.trim m.answer.toString))).toFloat < s.confidence.minAnswerChars ∧
            (∀ mk ∈ s.confidence.markers, Text.occursIn (Text.ofString mk).units
              (Text.ofString (Text.lower (Text.trim m.answer.toString))).units = false) ∧
            ((s.policy.decide hint).lane = .onDeviceRag → m.citations ≠ [])) := by
  refine ⟨⟨fun ⟨m, hs, h⟩ => ?_, fun hq => ⟨_, _, by rw [ask_of_empty s question hint hq]; rfl⟩⟩,
    fun hq => by rw [ask_of_empty s question hint hq], fun hq ha => ⟨_, ask_of_no_answerer s question hint hq ha⟩,
    fun f h => ?_, fun a hq ha => ?_⟩
  · -- an invalid question is a blank one
    rcases ask_error_cases hb h with ⟨hq, -⟩ | ⟨-, ⟨m', hm'⟩, -⟩
    · exact hq
    · cases hm'
  · rcases ask_error_cases hb h with ⟨-, hf, hs⟩ | ⟨-, hf, htally⟩
    · exact ⟨.inl hf, by rw [hs]⟩
    · exact ⟨.inr hf, htally⟩
  · obtain ⟨hbreaker, ts, rr, s', hrun, hcall⟩ := callLane_run_of_answerer (Text.trim question) hb ha
    obtain ⟨hall, -, halike, -⟩ := hrun.keeps
    refine ⟨ts, rr.result, s', hrun, fun m => (ask_error_iff hq ha hcall _).trans (hrun.configuration_iff m),
      fun hr hd t ht hadm => ?_, fun ans hans => ?_⟩
    · obtain ⟨b, hb'⟩ := Option.isSome_iff_exists.1 ((hall t ht).1 _ hbreaker)
      exact (hrun.dated hr hd t ht b hb' (allow_of_admits _ _ hb' hadm)).1
    · obtain ⟨hlane, hmodel⟩ := ask_answered hq ha hrun hcall hans
      refine ⟨hlane, fun hfb => ?_⟩
      obtain ⟨t, m, hlast, hres, htext, hcited, hprovider, htokens, hchars, hpass⟩ := hmodel hfb
      rw [halike.confidence] at hpass
      obtain ⟨he, hs, hmk, hc⟩ := (Confidence.Policy.evaluate_eq_none_iff _ _ _ _).1 hpass
      refine ⟨t, m, hlast, hres, htext, hcited, hprovider, htokens, hchars, he, hs, hmk, fun hg => ?_⟩
      rw [ne_eq, ← List.length_eq_zero_iff]
      exact hc (by rw [hg])

/-- The bad setting of a scripted model. -/
def badSetting : Prepared where
  result := .error (.configuration "bad")

/-- At a date, every rejection of a question on the scripted lane, whose model reports
a configuration fault, is the caller's or the setup's, and leaves the tally alone. -/
theorem dated_rejection_is_configuration :
    let s := scripted 1773144000000 badSetting
    (∀ a ∈ s.answerers, (s.breakers.find? (Key.ofString a.lane.name)).isSome) ∧
      ∀ f, (s.ask "why?" none).1 = .error f →
        (f = emptyQuestion ∨ ∃ m, f = .configuration m) ∧ (s.ask "why?" none).2.tally = s.tally := by
  intro s
  have hb : ∀ a ∈ s.answerers, (s.breakers.find? (Key.ofString a.lane.name)).isSome := by
    simp only [s, scripted, List.mem_singleton, forall_eq]
    cbv
  exact ⟨hb, (ask_answers_or_rejects s "why?" none hb).2.2.2.1⟩

/-- Past the last date, a model's configuration fault does not reject the question:
the breaker cannot date the failure it records, the attempt fails with that fault
instead, and the question is answered by the fallback. -/
theorem undated_configuration_fault_answered :
    let s := scripted 8640000000000001 badSetting
    ((s.answerWith (scriptedAnswerer badSetting) "why?" none 0).1 matches .error (.configuration _)) = true ∧
      (s.ask "why?" none).1.isOk = true := by
  decide +kernel

end Service

end LaneGate
