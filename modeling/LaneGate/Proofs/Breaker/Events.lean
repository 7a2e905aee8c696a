import LaneGate.Proofs.Breaker.Interleaved
import LaneGate.Script.Breakers
/-!
# The breaker's events tell its history

Every change of state a breaker makes, and every manual reset, emits an event naming
the state before and the state after. Read in order, the events of a run are a path
through the breaker's states (`Chained`): the first leaves the state the breaker was
created in, closed; each leaves the state the one before it reached; the last reaches
the breaker's state now. A transition event reports one of four moves (`Move`): a trip
from closed to open, a recovery from open to half-open, a failed trial from half-open
to open, and trials passed from half-open to closed. A reset event reports the state
the reset found and ends closed. The changes of state the breaker counts are its
transition events and the resets that found it not closed.

Each step returns the events it emitted, handed to the breaker's sink as they came. A
sink that throws a value with a text is caught and its value logged, so it has no way
back into the breaker: a run through it is the run through a sink that takes every
event (`Breaker.actAll_of_tame`), and a script whose sink fails on every event runs its
breaker exactly as one whose sink takes them all; only the events it reports differ
(`SoloRun.step_sink_blind`). A sink that throws a value with no text is another
matter: logging it throws a `TypeError` out of the step.

## What is proved

* `Breaker.events_tell_history`: from a new breaker, for any interleaving of calls'
  admissions and completions, resets and looks whose clock readings are dates, the
  events are a path from closed to the breaker's state, every transition is one of
  the four moves, every reset reports the state before it and ends closed, and the
  count of changes is that of the transitions and of the resets out of a state other
  than closed; whatever the sink does. A sink that throws only values with a text
  cannot change how the breaker or a script runs.
* `Breaker.history_astray_past_dates_or_through_sink`: without dates the path breaks. A
  look past the last date moves an open breaker to half-open and counts the change,
  but the event of the move cannot carry its time and is never heard. And a sink that
  throws a value with no text changes the answers, and leaves a closed breaker with a
  success streak.

## Honest scope

As in `Interleaved`, completions are not tied to earlier admissions: the account holds
of every list of steps.
-/

namespace LaneGate

/-- Once a member is set, the object has it. -/
theorem Json.any_setMember (ms : List (String × Json)) (key : String) (v : Json) :
    (Json.setMember ms key v).any (·.1 == key) = true := by
  unfold Json.setMember
  split
  · next h =>
    obtain ⟨p, hp, hk⟩ := List.any_eq_true.1 h
    exact List.any_eq_true.2 ⟨_, List.mem_map_of_mem hp, by simp_all⟩
  · simp

/-- Setting a member twice is setting it to the second value. -/
theorem Json.setMember_setMember (ms : List (String × Json)) (key : String) (v w : Json) :
    Json.setMember (Json.setMember ms key v) key w = Json.setMember ms key w := by
  have hset := Json.any_setMember ms key v
  unfold Json.setMember at hset ⊢
  by_cases h : ms.any (·.1 == key) = true
  · rw [if_pos h] at hset
    rw [if_pos h, if_pos hset, if_pos h, List.map_map]
    congr 1
    funext p
    by_cases hk : p.1 = key <;> simp [hk]
  · have hnone : ∀ p ∈ ms, p.1 ≠ key := fun p hp hk => h (List.any_eq_true.2 ⟨p, hp, by simp [hk]⟩)
    rw [if_neg h] at hset
    rw [if_neg h, if_pos hset, if_neg h, List.map_append]
    congr 1
    · conv => rhs; rw [← List.map_id ms]
      exact List.map_congr_left fun p hp => by simp [hnone p hp]
    · simp

theorem Json.set_set (j : Json) (key : String) (v w : Json) : (j.set key v).set key w = j.set key w := by
  cases j <;> simp [Json.set, Json.setMember_setMember]

namespace Script

open Breaker in
/-- A breaker step through a sink that throws only values with a text is the step
through one that takes every event. -/
theorem breakerStep_of_tame (step : Json) (b : Breaker.Breaker) (now : Float) {sink : Sink}
    (h : sink.Tame) : breakerStep step b now sink = breakerStep step b now := by
  unfold breakerStep flagsOf
  simp only [Breaker.execute_of_tame _ _ h, Step.through_of_tame _ h, Breaker.snapshot_of_tame _ _ h,
    Sink.escape_of_tame h, Sink.escape_quiet]

/-- What a script step does, apart from the events it reports: the breaker and the
clock after it, and its result with the events left out. -/
def SoloRun.sinkBlind (p : SoloRun × Json) : Breaker.Breaker × Float × Json :=
  (p.1.breaker, p.1.now, p.2.set "events" .null)

/-- A step of a single-breaker script whose sink throws only values with a text runs as
with a sink that takes every event: only the events it reports differ. -/
theorem SoloRun.step_of_tame (r : SoloRun) (step : Json) {sink : Breaker.Sink} (h : sink.Tame) :
    ({ r with sink := sink }.step step).map SoloRun.sinkBlind =
      ({ r with sink := .quiet }.step step).map SoloRun.sinkBlind := by
  simp only [SoloRun.step, breakerStep_of_tame _ _ _ h, Breaker.Breaker.snapshot_of_tame _ _ h]
  by_cases hq : flag step "quiet" = true
  · simp [hq, sinkBlind, Json.set_set, Except.map, bind, Except.bind, pure, Except.pure]
  · simp only [hq, Bool.false_eq_true, if_false, bind, Except.bind, pure, Except.pure]
    split <;> simp [sinkBlind, Json.set_set, Except.map]

/-- A step of a single-breaker script runs alike through any two sinks that throw only
values with a text: only the events it reports differ. -/
theorem SoloRun.step_sink_blind (r : SoloRun) (step : Json) {s₁ s₂ : Breaker.Sink}
    (h₁ : s₁.Tame) (h₂ : s₂.Tame) :
    ({ r with sink := s₁ }.step step).map SoloRun.sinkBlind =
      ({ r with sink := s₂ }.step step).map SoloRun.sinkBlind := by
  rw [SoloRun.step_of_tame r step h₁, SoloRun.step_of_tame r step h₂]

end Script

namespace Breaker

/-- The moves a transition event may report. -/
inductive Move : State → State → Prop
  /-- The failure threshold was reached. -/
  | trip : Move .closed .opened
  /-- The waiting time has passed. -/
  | recover : Move .opened .halfOpen
  /-- A trial call failed. -/
  | reopen : Move .halfOpen .opened
  /-- Enough trial calls succeeded. -/
  | close : Move .halfOpen .closed

/-- No move stays in its state. -/
theorem Move.ne {s s' : State} (h : Move s s') : s ≠ s' := by
  cases h <;> decide

/-- What an event may report: a transition one of the four moves, a reset the move to
closed from wherever the breaker was. -/
def Event.Reportable (e : Event) : Prop :=
  match e.kind with
  | .transition => Move e.fromState e.toState
  | .reset => e.toState = .closed

/-- The changes of state an event stands for: one for a transition, and one for a reset
that found the breaker not closed. -/
def Event.changes (e : Event) : Nat :=
  match e.kind with
  | .transition => 1
  | .reset => if e.fromState = .closed then 0 else 1

/-- The changes of state a list of events stands for. -/
def changesOf : List Event → Nat
  | [] => 0
  | e :: es => e.changes + changesOf es

/-- Events that lead from state `s` to state `s'`: the first leaves `s`, each leaves
the state the one before it reached, and the last reaches `s'`. -/
def Chained : State → List Event → State → Prop
  | s, [], s' => s = s'
  | s, e :: es, s' => e.fromState = s ∧ Chained e.toState es s'

instance decChained : (s : State) → (evs : List Event) → (s' : State) → Decidable (Chained s evs s')
  | s, [], s' => inferInstanceAs (Decidable (s = s'))
  | _, e :: es, s' =>
    haveI := decChained e.toState es s'
    inferInstanceAs (Decidable (_ ∧ _))

/-- Events that account for a breaker's move from state `s`, with `n` changes of state
counted, to state `s'` with `n'` counted: they lead from `s` to `s'`, each reports what
it may, and they stand for the changes counted in between. -/
structure Account (s : State) (n : Nat) (evs : List Event) (s' : State) (n' : Nat) : Prop where
  chained : Chained s evs s'
  reportable : ∀ e ∈ evs, e.Reportable
  counted : n' = n + changesOf evs

theorem Chained.append {s s' s'' : State} {es₁ es₂ : List Event} (h₁ : Chained s es₁ s')
    (h₂ : Chained s' es₂ s'') : Chained s (es₁ ++ es₂) s'' := by
  induction es₁ generalizing s with
  | nil => cases h₁; exact h₂
  | cons e es ih => exact ⟨h₁.1, ih h₁.2⟩

theorem changesOf_append (es₁ es₂ : List Event) :
    changesOf (es₁ ++ es₂) = changesOf es₁ + changesOf es₂ := by
  induction es₁ with
  | nil => simp [changesOf]
  | cons e es ih => simp only [List.cons_append, changesOf, ih]; omega

/-- The changes a list of events stands for are its transition events and its resets
out of a state other than closed. -/
theorem changesOf_eq_countP (evs : List Event) :
    changesOf evs = evs.countP (·.kind == .transition) +
      evs.countP (fun e => e.kind == .reset && e.fromState != .closed) := by
  induction evs with
  | nil => rfl
  | cons e es ih =>
    simp only [changesOf, ih, List.countP_cons, Event.changes]
    cases e.kind <;> by_cases h : e.fromState = .closed <;> simp [h] <;> omega

theorem Account.refl {s : State} {n : Nat} : Account s n [] s n :=
  ⟨rfl, (fun _ h => nomatch h), rfl⟩

theorem Account.trans {s s' s'' : State} {n n' n'' : Nat} {es₁ es₂ : List Event}
    (h₁ : Account s n es₁ s' n') (h₂ : Account s' n' es₂ s'' n'') :
    Account s n (es₁ ++ es₂) s'' n'' where
  chained := h₁.chained.append h₂.chained
  reportable e he := (List.mem_append.1 he).elim (h₁.reportable e) (h₂.reportable e)
  counted := by rw [h₂.counted, h₁.counted, changesOf_append]; omega

namespace Breaker

variable {b : Breaker} {t : Float} {sink : Sink}

/-! ### One operation at a date -/

/-- A change of state at a date is heard, as the move it makes. (The state `s` and count
`n` it starts from are those of `b`, given apart so that callers can name them as
they know them.) -/
theorem transition_account {s : State} {n : Nat} (hs : b.state = s) (hn : b.stats.stateTransitions = n)
    (hd : isDate t = true) {next : State} {r : String} (hm : b.state ≠ next → Move b.state next) :
    Account s n (b.transition t next r).2
      (b.transition t next r).1.state (b.transition t next r).1.stats.stateTransitions := by
  subst hs hn
  unfold transition
  split
  · next h => rw [h]; exact Account.refl
  · next h =>
    simp only [heard, hd, if_true]
    refine ⟨⟨rfl, rfl⟩, ?_, ?_⟩
    · intro e he
      rw [List.mem_singleton] at he
      subst he
      exact hm h
    · simp [changesOf, Event.changes]

theorem settle_account (hd : isDate t = true) :
    Account b.state b.stats.stateTransitions (b.settle t).2 (b.settle t).1.state
      (b.settle t).1.stats.stateTransitions := by
  rw [settle_eq]
  split
  · next hr =>
    refine transition_account rfl rfl hd fun _ => ?_
    rw [state_of_recovered b t hr]
    exact .recover
  · exact Account.refl

theorem allow_account (hd : isDate t = true) :
    Account b.state b.stats.stateTransitions (b.allow t sink).events (b.allow t sink).breaker.state
      (b.allow t sink).breaker.stats.stateTransitions := by
  have h := settle_account (b := b) hd
  rw [allow_eq]
  split
  · exact h
  · split <;> exact h

/-- A success accounts for itself whatever gets out of the sink: the close, if any, is
made and counted before its event is handed over. -/
theorem succeed_account (hd : isDate t = true) :
    Account b.state b.stats.stateTransitions (b.succeed t sink).events
      (b.succeed t sink).breaker.state (b.succeed t sink).breaker.stats.stateTransitions := by
  unfold succeed
  simp only [hd, Bool.not_true, Bool.false_eq_true, if_false]
  split
  · next hc =>
    split <;>
    · refine transition_account ?_ ?_ hd fun _ => ?_
      · rfl
      · rfl
      · exact hc.1 ▸ Move.close
  · exact Account.refl

theorem recordFailure_account (f : Fault) (hd : isDate t = true) :
    Account b.state b.stats.stateTransitions (b.recordFailure t f sink).events
      (b.recordFailure t f sink).breaker.state (b.recordFailure t f sink).breaker.stats.stateTransitions := by
  unfold recordFailure moved
  simp only [hd, Bool.not_true, Bool.false_eq_true, if_false]
  split
  · exact Account.refl
  · split
    · next hh =>
      refine transition_account ?_ ?_ hd fun _ => ?_
      · rfl
      · rfl
      · exact hh ▸ Move.reopen
    · split
      · next hc =>
        refine transition_account ?_ ?_ hd fun _ => ?_
        · rfl
        · rfl
        · exact hc.1 ▸ Move.trip
      · exact Account.refl

theorem complete_account (hd : isDate t = true) (o : Except Fault Unit) :
    Account b.state b.stats.stateTransitions (b.complete t o sink).events
      (b.complete t o sink).breaker.state (b.complete t o sink).breaker.stats.stateTransitions := by
  cases o with
  | ok u => exact succeed_account hd
  | error f =>
    rw [complete_error, fail_eq]
    split
    · exact recordFailure_account f hd
    · exact Account.refl

/-- A reset at a date emits one event, a reset from the state it found. -/
theorem reset_events (hd : isDate t = true) :
    (b.reset t).2 =
      [⟨.reset, b.config.key, b.state, .closed, "manual reset", (b.reset t).1.stats, t⟩] := by
  by_cases h : b.state = .closed <;> simp [reset, heard, hd, h]

theorem reset_account (hd : isDate t = true) :
    Account b.state b.stats.stateTransitions (b.reset t).2 (b.reset t).1.state
      (b.reset t).1.stats.stateTransitions := by
  rw [reset_events hd]
  refine ⟨⟨rfl, (reset_state b t).symm⟩, ?_, ?_⟩
  · intro e he
    rw [List.mem_singleton] at he
    subst he
    rfl
  · by_cases h : b.state = .closed <;> simp [reset, h, changesOf, Event.changes]

/-! ### Steps and runs -/

/-- The events one step emits, whatever the sink does with them. -/
def emitted (b : Breaker) : Action → List Event
  | .ask t => (b.allow t).events
  | .complete o t => (b.complete t o).events
  | .reset t => (b.reset t).2
  | .look .state t => (b.readState t).events
  | .look .remaining t => (b.remainingMs t).events
  | .look .snapshot t => (b.snapshot t).events

/-- The events a run through `sink` emits, in order. -/
def emittedAll (b : Breaker) (sink : Sink) : List Action → List Event
  | [] => []
  | a :: as => b.emitted a ++ (b.act sink a).2.emittedAll sink as

/-- The events of a completion do not depend on the sink. -/
theorem complete_events (o : Except Fault Unit) :
    (b.complete t o sink).events = (b.complete t o).events := by
  cases o with
  | ok u => exact succeed_events b t sink
  | error f =>
    simp only [complete_error, fail_eq]
    split
    · exact recordFailure_events b t sink f
    · rfl

/-- **One step accounts for itself**: the events of a step at a date lead from the
state before it to the state after, and stand for the changes it counted. -/
theorem act_account {a : Action} (ha : isDate a.time = true) :
    Account b.state b.stats.stateTransitions (b.emitted a) (b.act sink a).2.state
      (b.act sink a).2.stats.stateTransitions := by
  cases a with
  | ask t =>
    have h := @allow_account b t sink ha
    rw [allow_events] at h
    rw [emitted, allow_events]
    exact h
  | complete o t =>
    have h := @complete_account b t sink ha o
    rw [complete_events] at h
    exact h
  | reset t => exact reset_account ha
  | look kind t => rw [act_look]; cases kind <;> exact settle_account ha

/-- **A run accounts for itself**, step after step. -/
theorem actAll_account {as : List Action} (has : ∀ a ∈ as, isDate a.time = true) :
    Account b.state b.stats.stateTransitions (b.emittedAll sink as) (b.actAll sink as).2.state
      (b.actAll sink as).2.stats.stateTransitions := by
  induction as generalizing b with
  | nil => exact Account.refl
  | cons a as ih =>
    rw [actAll_cons]
    exact (act_account (has a (List.mem_cons_self ..))).trans
      (ih fun a' h => has a' (List.mem_cons_of_mem a h))

theorem emittedAll_append (b : Breaker) (as bs : List Action) :
    b.emittedAll sink (as ++ bs) = b.emittedAll sink as ++ (b.actAll sink as).2.emittedAll sink bs := by
  induction as generalizing b with
  | nil => rfl
  | cons a as ih => simp only [List.cons_append, emittedAll, ih, actAll_cons, List.append_assoc]

/-- A reset at a date emits one event: a reset from the state it found. -/
theorem emitted_reset (hd : isDate t = true) :
    ∃ e, b.emitted (.reset t) = [e] ∧ e.kind = .reset ∧ e.fromState = b.state ∧ e.toState = .closed :=
  ⟨_, reset_events hd, rfl, rfl, rfl⟩

/-- A step through a sink that throws only values with a text is the step through one
that takes every event. -/
theorem act_of_tame (h : sink.Tame) (b : Breaker) (a : Action) : b.act sink a = b.act .quiet a := by
  cases a with
  | ask t => simp only [act, allow_of_tame b t h]
  | complete o t => simp only [act, complete_of_tame b t h]
  | reset t => simp only [act, Sink.escape_of_tame h, Sink.escape_quiet]
  | look kind t =>
    cases kind <;> simp only [act, Step.through_of_tame _ h, snapshot_of_tame b t h]

/-- A run through a sink that throws only values with a text is the run through one
that takes every event: the same answers, step by step, and the same breaker. -/
theorem actAll_of_tame (h : sink.Tame) (b : Breaker) (as : List Action) :
    b.actAll sink as = b.actAll .quiet as := by
  induction as generalizing b with
  | nil => rfl
  | cons a as ih => rw [actAll_cons, actAll_cons, act_of_tame h, ih]

/-- **The events tell the breaker's history.** From a new breaker, whatever its sink
does, for every interleaving of admissions, completions, resets and looks whose clock
readings are dates: the events emitted lead from closed to the breaker's state now,
each leaving the state the one before reached; every transition is one of the four
moves (none stays in its state, `Move.ne`); every reset ends closed, and the event of
a reset reports the state the breaker was in when it came; and the changes of state
counted are the transitions and the resets that found the breaker not closed. A sink
that throws only values with a text leaves the run, the answers and the breaker, as a
sink that takes every event would, and a script's steps run alike through any two such
sinks. -/
theorem events_tell_history (c : Config) (t₀ : Float) (sink : Sink) (as : List Action)
    (has : ∀ a ∈ as, isDate a.time = true) :
    let b := ((create c t₀).actAll sink as).2
    let evs := (create c t₀).emittedAll sink as
    Chained .closed evs b.state ∧
      (∀ e ∈ evs, e.kind = .transition → Move e.fromState e.toState) ∧
      (∀ e ∈ evs, e.kind = .reset → e.toState = .closed) ∧
      (∀ pre t post, as = pre ++ Action.reset t :: post →
        ∃ e rest, evs = (create c t₀).emittedAll sink pre ++ e :: rest ∧ e.kind = .reset ∧
          e.fromState = ((create c t₀).actAll sink pre).2.state) ∧
      b.stats.stateTransitions = evs.countP (·.kind == .transition) +
        evs.countP (fun e => e.kind == .reset && e.fromState != .closed) ∧
      (sink.Tame → (create c t₀).actAll sink as = (create c t₀).actAll .quiet as) ∧
      (∀ (r : Script.SoloRun) (step : Json) (s₁ s₂ : Sink), s₁.Tame → s₂.Tame →
        ({ r with sink := s₁ }.step step).map Script.SoloRun.sinkBlind =
          ({ r with sink := s₂ }.step step).map Script.SoloRun.sinkBlind) := by
  intro b evs
  have hacc : Account .closed 0 evs b.state b.stats.stateTransitions :=
    actAll_account (b := create c t₀) has
  refine ⟨hacc.chained, fun e he hk => ?_, fun e he hk => ?_, fun pre t post hsplit => ?_, ?_,
    fun h => actAll_of_tame h _ as, fun r step _ _ h₁ h₂ => Script.SoloRun.step_sink_blind r step h₁ h₂⟩
  · have := hacc.reportable e he
    rw [Event.Reportable, hk] at this
    exact this
  · have := hacc.reportable e he
    rw [Event.Reportable, hk] at this
    exact this
  · have ht : isDate t = true := has (.reset t) (by rw [hsplit]; simp)
    obtain ⟨e, he, hk, hf, -⟩ := emitted_reset (b := ((create c t₀).actAll sink pre).2) ht
    refine ⟨e, ((create c t₀).actAll sink pre).2.act sink (.reset t) |>.2.emittedAll sink post, ?_, hk, hf⟩
    show (create c t₀).emittedAll sink as = _
    rw [hsplit, emittedAll_append, emittedAll, he]
    rfl
  · rw [hacc.counted, Nat.zero_add, changesOf_eq_countP]

/-- A breaker trips at its one allowed failure, recovers when looked at 100 ms later,
and is reset while half-open, with a sink that throws on every event: three events,
closed to open to half-open to closed. -/
theorem events_tell_history_trip_and_reset :
    let c : Config := ⟨none, 1, 1, 100, .standard, by decide, by decide⟩
    let as := [Action.ask 1773144000000, .complete (.error (.plain (Text.ofString "down"))) 1773144000000,
      .look .state 1773144000100, .reset 1773144000100]
    (∀ a ∈ as, isDate a.time = true) ∧
      (let b := ((create c 1773144000000).actAll .failing as).2
       let evs := (create c 1773144000000).emittedAll .failing as
       Chained .closed evs b.state ∧
        (∀ e ∈ evs, e.kind = .transition → Move e.fromState e.toState) ∧
        (∀ e ∈ evs, e.kind = .reset → e.toState = .closed) ∧
        (∀ pre t post, as = pre ++ Action.reset t :: post →
          ∃ e rest, evs = (create c 1773144000000).emittedAll .failing pre ++ e :: rest ∧
            e.kind = .reset ∧ e.fromState = ((create c 1773144000000).actAll .failing pre).2.state) ∧
        b.stats.stateTransitions = evs.countP (·.kind == .transition) +
          evs.countP (fun e => e.kind == .reset && e.fromState != .closed) ∧
        (Sink.failing.Tame →
          (create c 1773144000000).actAll .failing as = (create c 1773144000000).actAll .quiet as) ∧
        (∀ (r : Script.SoloRun) (step : Json) (s₁ s₂ : Sink), s₁.Tame → s₂.Tame →
          ({ r with sink := s₁ }.step step).map Script.SoloRun.sinkBlind =
            ({ r with sink := s₂ }.step step).map Script.SoloRun.sinkBlind)) :=
  ⟨by decide, events_tell_history _ _ _ _ (by decide)⟩

/-- A sink that throws a value with no text on every event. -/
def Sink.textless : Sink := ⟨fun _ => some .textless⟩

/-- **The history goes astray past the last date, or through a wild sink.** A breaker
that opens at its one allowed failure on the last date, and waits no time, is looked
at one millisecond past the last date: it moves to half-open and counts the move, but
the move's event cannot carry its time and is never heard. Back on the last date one
success closes it: the events heard jump from open to half-open, and three changes are
counted against two events.

And a breaker whose sink throws a value with no text on every event answers a
`TypeError` at each change of state, a trip, a recovery and a close, where a sink that
takes every event lets each step answer `ok`; after the close its success streak is
left at one, not cleared. -/
theorem history_astray_past_dates_or_through_sink :
    (let c : Config := ⟨none, 1, 1, 0, .standard, by decide, by decide⟩
     let as := [Action.ask 8640000000000000,
       .complete (.error (.plain (Text.ofString "boom"))) 8640000000000000,
       .look .state 8640000000000001, .ask 8640000000000000, .complete (.ok ()) 8640000000000000]
     let evs := (create c 8640000000000000).emittedAll .quiet as
     evs.map (fun e => (e.fromState, e.toState)) = [(.closed, .opened), (.halfOpen, .closed)] ∧
       ¬ Chained .closed evs ((create c 8640000000000000).actAll .quiet as).2.state ∧
       ((create c 8640000000000000).actAll .quiet as).2.stats.stateTransitions = 3) ∧
    (let c : Config := ⟨none, 1, 1, 100, .standard, by decide, by decide⟩
     let as := [Action.ask 1773144000000,
       .complete (.error (.plain (Text.ofString "boom"))) 1773144000000,
       .look .state 1773144000100, .ask 1773144000100, .complete (.ok ()) 1773144000100]
     let wild := (create c 1773144000000).actAll Sink.textless as
     let calm := (create c 1773144000000).actAll .quiet as
     wild.2.state = .closed ∧ calm.2.state = .closed ∧
       wild.2.stats.consecutiveSuccesses = 1 ∧ calm.2.stats.consecutiveSuccesses = 0 ∧
       wild.1.map (·.2.toBool) = [true, false, false, true, false] ∧
       calm.1.map (·.2.toBool) = [true, true, true, true, true]) := by
  decide

end Breaker

end LaneGate.Breaker
