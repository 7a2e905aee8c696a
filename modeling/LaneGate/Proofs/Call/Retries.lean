import LaneGate.Call.Retry
/-!
# The attempts a retried call makes

`retry` runs a call up to `maxAttempts` times. Here its run is written out as the
attempts it makes (`Try`): each with its number, the state and waiting clock it began
from, and its result with the state and clock it ended with. `Runs` says which lists
of attempts and which endings the loop may produce (what it throws, or the outcome it
reports), one constructor per way the loop goes on; `retry_runs` shows that the loop's
ending is one of them.

## What is proved

* `retry_runs`: every run of `retry` is described by `Runs`.
* `Runs.length_le`: no more than `maxAttempts` attempts are made.
* `Runs.numbers`: the attempts are numbered 1, 2, … in order.
* `Runs.attempt_eq`: each attempt is the call at its number, state and clock, begun
  before the deadline has fired.
* `Runs.retried`, `Runs.last_or_retried`: every attempt but the last failed with a
  fault the policy lets the loop retry; so nothing follows a success, or a fault the
  policy refuses to retry.
* `Runs.chain`: each attempt begins in the state the one before ended with, and the
  loop ends in the state of the last; so what every attempt keeps holds throughout
  (`Chain.invariant`), and a count each attempt moves by at most one ends moved by the
  number of attempts that move it (`Chain.count`).
* `Runs.result_eq_last`: the loop's outcome is the last attempt's (its value, or its
  fault); with no attempt, the deadline's reason or nothing.
* `Runs.reports`: the loop throws, rather than report an outcome, only when a fault
  it writes to the log has no text.
-/

namespace LaneGate

/-- One attempt of a retried call: its number, the state and waiting clock it began
from, and its result with the state and waiting clock it ended with. -/
structure Try (σ α : Type) where
  /-- Its number, from 1. -/
  number : Nat
  /-- The state it began from. -/
  before : σ
  /-- The waiting clock when it began. -/
  startedAt : Float
  /-- Its result. -/
  result : Except Fault α
  /-- The state it ended with. -/
  after : σ
  /-- The waiting clock when it ended. -/
  endedAt : Float

section Runs

variable {σ α : Type} (plan : RetryPlan) (shouldRetry : Fault → Nat → Option Bool)
  (deadline : Option Deadline) (attempt : Nat → σ → Float → Except Fault α × σ × Float)

/-- Whether the loop stops after attempt `k` failed with `f`: the policy refuses a
retry, or no attempts remain. -/
def stopsAfter (f : Fault) (k : Nat) : Bool :=
  shouldRetry f k == some false || plan.maxAttempts ≤ k

/-- How a loop that gives up with the fault `last` (if any) ends: it reports that
fault, unless writing its text to the log throws. -/
def gaveUp (last : Option Fault) : Except Fault (Except (Option Fault) α) :=
  match last.map Fault.describe with
  | some (.error t) => .error t
  | _ => .ok (.error last)

/-- How a loop ends after its last attempt: with its value, or giving up with its
fault. -/
def endedWith : Except Fault α → Except Fault (Except (Option Fault) α)
  | .ok v => .ok (.ok v)
  | .error f => gaveUp (some f)

/-- The runs of the retry loop from attempt `k`, after the fault `last` (if any), in
state `s` at waiting clock `e`: the attempts made, how the loop ends (what it throws,
or the outcome it reports), and the state and waiting clock it ends with. -/
inductive Runs : Nat → Option Fault → σ → Float → List (Try σ α) →
    Except Fault (Except (Option Fault) α) → σ → Float → Prop where
  /-- No attempts remain (only when none were allowed). -/
  | exhausted {k : Nat} {last : Option Fault} {s : σ} {e : Float} :
      k = plan.maxAttempts + 1 → Runs k last s e [] (gaveUp last) s e
  /-- The deadline has fired: the last fault, or the deadline's reason. -/
  | expired {k : Nat} {last : Option Fault} {s : σ} {e : Float} :
      k ≤ plan.maxAttempts → Deadline.passed deadline e = true →
      Runs k last s e [] (gaveUp (last.or (deadline.map (·.reason)))) s e
  /-- The attempt succeeds. -/
  | success {k : Nat} {last : Option Fault} {s s' : σ} {e e' : Float} {v : α} :
      k ≤ plan.maxAttempts → Deadline.passed deadline e = false → attempt k s e = (.ok v, s', e') →
      Runs k last s e [⟨k, s, e, .ok v, s', e'⟩] (.ok (.ok v)) s' e'
  /-- The attempt fails with a fault that has no text: writing it to the log throws. -/
  | reject {k : Nat} {last : Option Fault} {s s' : σ} {e e' : Float} {f : Fault} :
      k ≤ plan.maxAttempts → Deadline.passed deadline e = false → attempt k s e = (.error f, s', e') →
      f.hasText = false → Runs k last s e [⟨k, s, e, .error f, s', e'⟩] (.error .wrongType) s' e'
  /-- The attempt fails, and the loop stops. -/
  | stop {k : Nat} {last : Option Fault} {s s' : σ} {e e' : Float} {f : Fault} :
      k ≤ plan.maxAttempts → Deadline.passed deadline e = false → attempt k s e = (.error f, s', e') →
      f.hasText = true → stopsAfter plan shouldRetry f k = true →
      Runs k last s e [⟨k, s, e, .error f, s', e'⟩] (.ok (.error (some f))) s' e'
  /-- The attempt fails, and the loop goes on after a pause. -/
  | retry {k : Nat} {last : Option Fault} {s s' s'' : σ} {e e' e'' : Float} {f : Fault}
      {ts : List (Try σ α)} {r : Except Fault (Except (Option Fault) α)} :
      k ≤ plan.maxAttempts → Deadline.passed deadline e = false → attempt k s e = (.error f, s', e') →
      f.hasText = true → stopsAfter plan shouldRetry f k = false →
      Runs (k + 1) (some f) s'
        (pause (backoffMs (k - 1).toFloat plan.baseDelayMs plan.maxDelayMs) deadline e') ts r s'' e'' →
      Runs k last s e (⟨k, s, e, .error f, s', e'⟩ :: ts) r s'' e''

variable {plan shouldRetry deadline attempt} in
/-- What a loop that gives up reports is the run's ending. -/
theorem reported_map_result (last : Option Fault) (r : Retried α) (h : r.result = .error last) :
    (Retried.reported last r).map (·.result) = gaveUp last := by
  unfold Retried.reported gaveUp
  cases last.map Fault.describe with
  | none => simp [Except.map, h]
  | some d => cases d <;> simp [Except.map, h]

variable {plan shouldRetry deadline attempt} in
theorem gaveUp_some {f : Fault} (hf : f.hasText = true) :
    (gaveUp (some f) : Except Fault (Except (Option Fault) α)) = .ok (.error (some f)) := by
  simp [gaveUp, Fault.describe_of_hasText hf]

variable {plan shouldRetry deadline attempt} in
/-- A loop that reports an outcome after giving up reports the fault it gave up with. -/
theorem gaveUp_eq_ok {last : Option Fault} {o : Except (Option Fault) α}
    (h : (gaveUp last : Except Fault (Except (Option Fault) α)) = .ok o) : o = .error last := by
  unfold gaveUp at h
  split at h
  · cases h
  · exact (Except.ok.inj h).symm

variable {plan shouldRetry deadline attempt} in
/-- A loop that reports an outcome after its last attempt reports that attempt's value
or fault. -/
theorem endedWith_eq_ok {r : Except Fault α} {o : Except (Option Fault) α}
    (h : endedWith r = .ok o) : o = r.mapError some := by
  cases r with
  | ok v => exact (Except.ok.inj h).symm
  | error f => exact gaveUp_eq_ok h

/-- **The loop runs as described.** With `fuel` attempts left for attempts `k` on, after
`k - 1` failed attempts, the loop's ending and final state are those of some run, and
when it reports an outcome, the attempts it reports are the `k - 1` before and those
of the run. -/
theorem retryFrom_runs :
    ∀ (fuel k : Nat) (last : Option Fault) (failures : List (Nat × Fault)) (consulted : List Nat)
      (s : σ) (e : Float), fuel + k = plan.maxAttempts + 1 → failures.length + 1 = k →
      let out := retryFrom plan shouldRetry deadline attempt fuel k last failures consulted s e
      ∃ ts, Runs plan shouldRetry deadline attempt k last s e ts (out.1.map (·.result)) out.2.1 out.2.2 ∧
        ∀ r, out.1 = .ok r → r.attempts + 1 = k + ts.length
  | 0, k, last, failures, consulted, s, e, hk, hf => by
    refine ⟨[], ?_, ?_⟩
    · simp only [retryFrom]
      rw [reported_map_result last _ rfl]
      exact .exhausted (by omega)
    · intro r hr
      simp only [retryFrom] at hr
      unfold Retried.reported at hr
      split at hr <;> cases hr
      simp only [List.length_nil]
      omega
  | fuel + 1, k, last, failures, consulted, s, e, hk, hf => by
    intro out
    have hle : k ≤ plan.maxAttempts := by omega
    by_cases hpassed : Deadline.passed deadline e = true
    · refine ⟨[], ?_, ?_⟩
      · simp only [out, retryFrom, hpassed, if_true]
        cases last <;> (rw [reported_map_result _ _ rfl]; exact .expired hle hpassed)
      · intro r hr
        simp only [out, retryFrom, hpassed, if_true] at hr
        unfold Retried.reported at hr
        split at hr <;> cases hr
        simp only [List.length_nil]
        omega
    · simp only [Bool.not_eq_true] at hpassed
      rcases hatt : attempt k s e with ⟨result, s', e'⟩
      cases result with
      | ok v =>
        refine ⟨[⟨k, s, e, .ok v, s', e'⟩], ?_, ?_⟩
        · simp only [out, retryFrom, hpassed, hatt]
          exact .success hle hpassed hatt
        · intro r hr
          simp only [out, retryFrom, hpassed, hatt, Bool.false_eq_true, if_false, Except.ok.injEq] at hr
          subst hr
          simp
      | error f =>
        cases htext : f.hasText with
        | false =>
          refine ⟨[⟨k, s, e, .error f, s', e'⟩], ?_, ?_⟩
          · have hd : f.describe = .error .wrongType := by simp [Fault.describe, htext]
            simp only [out, retryFrom, hpassed, hatt, hd]
            exact .reject hle hpassed hatt htext
          · intro r hr
            have hd : f.describe = .error .wrongType := by simp [Fault.describe, htext]
            simp only [out, retryFrom, hpassed, hatt, hd, Bool.false_eq_true, if_false] at hr
            cases hr
        | true =>
          have hd := Fault.describe_of_hasText htext
          -- no fuel left after this attempt exactly when it is the last one allowed
          have hstop : (shouldRetry f k == some false || decide (k ≥ plan.maxAttempts) || decide (fuel = 0)) =
              stopsAfter plan shouldRetry f k := by
            unfold stopsAfter
            by_cases h : plan.maxAttempts ≤ k <;> simp [h] <;> omega
          cases hs : stopsAfter plan shouldRetry f k with
          | true =>
            refine ⟨[⟨k, s, e, .error f, s', e'⟩], ?_, ?_⟩
            · simp only [out, retryFrom, hpassed, hatt, hd, hstop, hs]
              exact .stop hle hpassed hatt htext hs
            · intro r hr
              simp only [out, retryFrom, hpassed, hatt, hd, hstop, hs, Bool.false_eq_true, if_false,
                if_true, Except.ok.injEq] at hr
              subst hr
              simp
          | false =>
            have hrest := retryFrom_runs fuel (k + 1) (some f) (failures ++ [(k, f)])
              (if (shouldRetry f k).isSome then consulted ++ [k] else consulted) s'
              (pause (backoffMs (k - 1).toFloat plan.baseDelayMs plan.maxDelayMs) deadline e') (by omega)
              (by simp only [List.length_append, List.length_singleton]; omega)
            obtain ⟨ts, hts, hcount⟩ := hrest
            refine ⟨⟨k, s, e, .error f, s', e'⟩ :: ts, ?_, ?_⟩
            · simp only [out, retryFrom, hpassed, hatt, hd, hstop, hs]
              exact .retry hle hpassed hatt htext hs hts
            · intro r hr
              simp only [out, retryFrom, hpassed, hatt, hd, hstop, hs, Bool.false_eq_true, if_false] at hr
              have := hcount r hr
              simp only [List.length_cons]
              omega

/-- Every run of `retry` from attempt 1 is described by `Runs`, and when it reports an
outcome, the attempts it reports are those of the run. -/
theorem retry_runs_counted (s : σ) (e : Float) :
    let out := retry plan shouldRetry deadline attempt s e
    ∃ ts, Runs plan shouldRetry deadline attempt 1 none s e ts (out.1.map (·.result)) out.2.1 out.2.2 ∧
      ∀ r, out.1 = .ok r → r.attempts = ts.length := by
  obtain ⟨ts, hts, hcount⟩ :=
    retryFrom_runs plan shouldRetry deadline attempt plan.maxAttempts 1 none [] [] s e rfl rfl
  exact ⟨ts, hts, fun r hr => by have := hcount r hr; omega⟩

/-- Every run of `retry` from attempt 1 is described by `Runs`. -/
theorem retry_runs (s : σ) (e : Float) :
    let out := retry plan shouldRetry deadline attempt s e
    ∃ ts, Runs plan shouldRetry deadline attempt 1 none s e ts (out.1.map (·.result)) out.2.1 out.2.2 :=
  (retry_runs_counted plan shouldRetry deadline attempt s e).imp fun _ h => h.1

variable {plan shouldRetry deadline attempt}

/-! ### What every run does -/

/-- No attempt is made past `maxAttempts`. -/
theorem Runs.length_le {k : Nat} {last : Option Fault} {s s' : σ} {e e' : Float}
    {ts : List (Try σ α)} {r : Except Fault (Except (Option Fault) α)}
    (h : Runs plan shouldRetry deadline attempt k last s e ts r s' e') :
    k + ts.length ≤ plan.maxAttempts + 1 := by
  induction h with
  | exhausted hk => simp only [List.length_nil]; omega
  | expired hk _ => simp only [List.length_nil]; omega
  | success hk _ _ | reject hk _ _ _ | stop hk _ _ _ _ => simp only [List.length_singleton]; omega
  | retry _ _ _ _ _ _ ih => simp only [List.length_cons] at ih ⊢; omega

/-- The attempts are numbered in order from `k`. -/
theorem Runs.numbers {k : Nat} {last : Option Fault} {s s' : σ} {e e' : Float}
    {ts : List (Try σ α)} {r : Except Fault (Except (Option Fault) α)}
    (h : Runs plan shouldRetry deadline attempt k last s e ts r s' e') :
    ts.map (·.number) = List.range' k ts.length := by
  induction h with
  | exhausted _ | expired _ _ => rfl
  | success _ _ _ | reject _ _ _ _ | stop _ _ _ _ _ => rfl
  | retry _ _ _ _ _ _ ih => simp [ih, List.range'_succ]

/-- Each attempt is the call at its number, state and clock, made before the deadline
fired. -/
theorem Runs.attempt_eq {k : Nat} {last : Option Fault} {s s' : σ} {e e' : Float}
    {ts : List (Try σ α)} {r : Except Fault (Except (Option Fault) α)}
    (h : Runs plan shouldRetry deadline attempt k last s e ts r s' e') :
    ∀ t ∈ ts, attempt t.number t.before t.startedAt = (t.result, t.after, t.endedAt) ∧
      Deadline.passed deadline t.startedAt = false := by
  induction h with
  | exhausted _ | expired _ _ => simp
  | success _ hp ha | reject _ hp ha _ | stop _ hp ha _ _ => simpa using ⟨ha, hp⟩
  | retry _ hp ha _ _ _ ih =>
    intro t ht
    rcases List.mem_cons.1 ht with rfl | ht
    · exact ⟨ha, hp⟩
    · exact ih t ht

/-- **Only failures are retried.** Every attempt but the last failed with a fault that
has a text, after which the loop does not stop: the policy lets it retry and attempts
remain. -/
theorem Runs.retried {k : Nat} {last : Option Fault} {s s' : σ} {e e' : Float}
    {ts : List (Try σ α)} {r : Except Fault (Except (Option Fault) α)}
    (h : Runs plan shouldRetry deadline attempt k last s e ts r s' e') :
    ∀ t ∈ ts.dropLast, ∃ f, t.result = .error f ∧ f.hasText = true ∧
      stopsAfter plan shouldRetry f t.number = false := by
  induction h with
  | exhausted _ | expired _ _ => simp
  | success _ _ _ | reject _ _ _ _ | stop _ _ _ _ _ => simp
  | @retry k _ s s' _ e e' _ f ts _ _ _ _ ht hs hrest ih =>
    intro t htm
    cases ts with
    | nil => simp at htm
    | cons t' ts' =>
      rw [List.dropLast_cons_cons] at htm
      rcases List.mem_cons.1 htm with rfl | htm
      · exact ⟨f, rfl, ht, hs⟩
      · exact ih t htm

theorem mem_dropLast_or_getLast? {β : Type} {l : List β} {x : β} (h : x ∈ l) :
    x ∈ l.dropLast ∨ l.getLast? = some x := by
  induction l with
  | nil => cases h
  | cons y ys ih =>
    cases ys with
    | nil =>
      rw [List.mem_singleton] at h
      subst h
      exact .inr rfl
    | cons z zs =>
      rw [List.dropLast_cons_cons, List.getLast?_cons_cons]
      rcases List.mem_cons.1 h with rfl | h
      · exact .inl List.mem_cons_self
      · exact (ih h).imp (List.mem_cons_of_mem _) id

/-- Every attempt is the last one, or one after which the loop went on. -/
theorem Runs.last_or_retried {k : Nat} {last : Option Fault} {s s' : σ} {e e' : Float}
    {ts : List (Try σ α)} {r : Except Fault (Except (Option Fault) α)}
    (h : Runs plan shouldRetry deadline attempt k last s e ts r s' e') {t : Try σ α} (ht : t ∈ ts) :
    ts.getLast? = some t ∨ ∃ f, t.result = .error f ∧ f.hasText = true ∧
      stopsAfter plan shouldRetry f t.number = false :=
  (mem_dropLast_or_getLast? ht).symm.imp id (h.retried t)

/-- The states chain: the first attempt begins in `s`, each next one in the state the
one before it ended with, and the loop ends in the state of the last (in `s` with no
attempt). -/
def Chain : σ → List (Try σ α) → σ → Prop
  | s, [], s' => s' = s
  | s, t :: ts, s' => t.before = s ∧ Chain t.after ts s'

theorem Runs.chain {k : Nat} {last : Option Fault} {s s' : σ} {e e' : Float}
    {ts : List (Try σ α)} {r : Except Fault (Except (Option Fault) α)}
    (h : Runs plan shouldRetry deadline attempt k last s e ts r s' e') : Chain s ts s' := by
  induction h with
  | exhausted _ | expired _ _ => rfl
  | success _ _ _ | reject _ _ _ _ | stop _ _ _ _ _ => exact ⟨rfl, rfl⟩
  | retry _ _ _ _ _ _ ih => exact ⟨rfl, ih⟩

/-- **What every attempt keeps holds throughout**: at each attempt's start and at the
end. -/
theorem Chain.invariant {P : σ → Prop} :
    ∀ {s s' : σ} {ts : List (Try σ α)}, Chain s ts s' → P s → (∀ t ∈ ts, P t.before → P t.after) →
      (∀ t ∈ ts, P t.before) ∧ P s'
  | s, s', [], h, hs, _ => by
    simp only [Chain] at h
    exact ⟨by simp, h ▸ hs⟩
  | s, s', t :: ts, h, hs, hstep => by
    obtain ⟨hb, hrest⟩ := h
    have ht : P t.before := hb ▸ hs
    have ih := Chain.invariant hrest (hstep t List.mem_cons_self ht)
      (fun t' h' => hstep t' (List.mem_cons_of_mem _ h'))
    exact ⟨fun t' h' => (List.mem_cons.1 h').elim (fun e => e ▸ ht) (ih.1 t'), ih.2⟩

/-- A count that each attempt moves up by one or leaves alone ends moved by the number
of attempts that move it. -/
theorem Chain.count {q : σ → Nat} {c : Try σ α → Bool} :
    ∀ {s s' : σ} {ts : List (Try σ α)}, Chain s ts s' →
      (∀ t ∈ ts, q t.after = q t.before + if c t then 1 else 0) → q s' = q s + ts.countP c
  | s, s', [], h, _ => by
    simp only [Chain] at h
    rw [h, List.countP_nil, Nat.add_zero]
  | s, s', t :: ts, h, hq => by
    obtain ⟨hb, hrest⟩ := h
    have ih := Chain.count hrest (fun t' h' => hq t' (List.mem_cons_of_mem _ h'))
    have ht := hq t List.mem_cons_self
    rw [hb] at ht
    rw [ih, ht, List.countP_cons]
    omega

/-- **The ending is the last attempt's**: its value, or giving up with its fault. -/
theorem Runs.result_eq_last {k : Nat} {last : Option Fault} {s s' : σ} {e e' : Float}
    {ts : List (Try σ α)} {r : Except Fault (Except (Option Fault) α)}
    (h : Runs plan shouldRetry deadline attempt k last s e ts r s' e') :
    ∀ t, ts.getLast? = some t → r = endedWith t.result := by
  induction h with
  | exhausted _ | expired _ _ => simp
  | success _ _ _ => intro t ht; simp at ht; subst ht; rfl
  | reject _ _ _ hf =>
    intro t ht
    simp at ht
    subst ht
    simp [endedWith, gaveUp, Fault.describe, hf]
  | stop _ _ _ hf _ =>
    intro t ht
    simp at ht
    subst ht
    exact (gaveUp_some hf).symm
  | @retry k _ s s' _ e e' _ f ts r _ _ _ _ _ hrest ih =>
    intro t ht
    cases ts with
    | nil =>
      cases hrest with
      | exhausted hk => simp at ht; subst ht; rfl
      | expired hk hp => simp at ht; subst ht; rfl
    | cons t' ts' =>
      rw [List.getLast?_cons_cons] at ht
      exact ih t ht

/-- With no attempt made, the loop gives up with no fault or with the deadline's reason. -/
theorem Runs.result_of_nil {k : Nat} {s s' : σ} {e e' : Float} {r : Except Fault (Except (Option Fault) α)}
    (h : Runs plan shouldRetry deadline attempt k none s e [] r s' e') :
    r = gaveUp none ∨ r = gaveUp (deadline.map (·.reason)) := by
  cases h with
  | exhausted _ => exact .inl rfl
  | expired _ _ => exact .inr rfl

/-- **The loop throws only on a fault with no text**: an attempt that failed with one,
or, with no attempt made, a deadline whose reason has none. -/
theorem Runs.reports {k : Nat} {s s' : σ} {e e' : Float} {ts : List (Try σ α)}
    {r : Except Fault (Except (Option Fault) α)}
    (h : Runs plan shouldRetry deadline attempt k none s e ts r s' e')
    (hts : ∀ t ∈ ts, Fault.textful t.result = true)
    (hd : ∀ dl ∈ deadline, dl.reason.hasText = true) : ∃ o, r = .ok o := by
  cases hl : ts.getLast? with
  | some t =>
    rw [h.result_eq_last t hl]
    have htext := hts t (List.mem_of_getLast? hl)
    cases ht : t.result with
    | ok v => exact ⟨_, rfl⟩
    | error f =>
      rw [ht, Fault.textful_error] at htext
      exact ⟨_, gaveUp_some htext⟩
  | none =>
    rw [List.getLast?_eq_none_iff] at hl
    subst hl
    rcases h.result_of_nil with rfl | rfl
    · exact ⟨_, rfl⟩
    · cases hdl : deadline with
      | none => exact ⟨_, rfl⟩
      | some dl => exact ⟨_, gaveUp_some (hd dl hdl)⟩

end Runs

end LaneGate
