import Mathlib
import LaneGate.Script.Calls
/-!
# A watched call settles once, with what happens to it first

Each handler of a watch asks first whether it has settled the call, and the handler
that settles it also clears the timer and removes the listener. So a stopped watch
ignores everything that happens after (`Watch.run_stopped`), and from its start a watch
waits until the first happening that can take effect, which stops it unless it is a
throw (`Watch.run_start`). What a call that does not throw settles with, and the reason
its signal is aborted with, are then those of that first happening
(`withTimeout_settles_once`).

A call that throws as it is made fails with what it threw, but no handler hears of it:
the watch then goes on as if the call had just been made, its result held
(`withTimeout_of_throw`), so the timer still fires and aborts the call's signal
(`thrown_call_aborted_by_timer`).

The happenings of a call with known timings always include the timeout, and never a
throw, so such a call always settles (`schedule_settles`), and a timed-call script
always answers (`Script.runTimed_answers`).
-/

namespace LaneGate

/-- Whether `h` can happen to a call made under `parent`: only a parent signal that had
not aborted when the call was made can abort it later. -/
def Happening.Live (parent : Parent) : Happening → Bool
  | .parentAborted _ => parent.canAbort
  | _ => true

/-- Whether `h` is the call throwing as it is made. -/
def Happening.isThrow : Happening → Bool
  | .threw _ => true
  | _ => false

/-- The result of a call when `h` happens to it first: its own outcome, the timeout's
error, or the parent's reason. -/
def Happening.result (label : Json) (timeoutMs : Float) : Happening → Except Fault Json
  | .settled o => o
  | .threw e => .error e
  | .timerFired => .error (.callTimeout label (.num timeoutMs))
  | .parentAborted r => .error r

/-- The reason the call's signal is aborted with when `h` happens first; none when the
call settled or threw first. -/
def Happening.abortReason (label : Json) (timeoutMs : Float) : Happening → Option Fault
  | .settled _ => none
  | .threw _ => none
  | .timerFired => some (.callTimeout label (.num timeoutMs))
  | .parentAborted r => some r

namespace Watch

variable {label : Json} {timeoutMs : Float}

/-- A watch that has stopped: the result is in, the call settled, the timer cleared, the
listener removed. -/
def stopped (o : Except Fault Json) (r : Option Fault) : Watch := ⟨some o, true, r, false, false⟩

@[simp] theorem run_nil (w : Watch) : w.run label timeoutMs [] = w := rfl

theorem run_cons (w : Watch) (h : Happening) (hs : List Happening) :
    w.run label timeoutMs (h :: hs) = (w.step label timeoutMs h).run label timeoutMs hs := rfl

theorem run_append (w : Watch) (hs hs' : List Happening) :
    w.run label timeoutMs (hs ++ hs') = (w.run label timeoutMs hs).run label timeoutMs hs' :=
  List.foldl_append

/-- Every handler of a stopped watch returns at its guard. -/
theorem step_stopped (o : Except Fault Json) (r : Option Fault) (h : Happening) :
    (stopped o r).step label timeoutMs h = stopped o r := by
  cases h <;> rfl

theorem run_stopped (o : Except Fault Json) (r : Option Fault) (hs : List Happening) :
    (stopped o r).run label timeoutMs hs = stopped o r := by
  induction hs with
  | nil => rfl
  | cons h hs ih => rw [run_cons, step_stopped, ih]

/-- The first happening that can take effect stops the watch with its result, unless it
is a throw. -/
theorem step_start_of_live {parent : Parent} {h : Happening} (hl : h.Live parent = true)
    (ht : h.isThrow = false) :
    (start parent).step label timeoutMs h =
      stopped (h.result label timeoutMs) (h.abortReason label timeoutMs) := by
  cases h with
  | settled o => rfl
  | threw e => cases ht
  | timerFired => rfl
  | parentAborted r =>
    -- the listener is attached exactly when the parent can still abort
    cases parent <;> simp_all [Happening.Live, Parent.canAbort, start, step, fail, stopped, cleanup,
      Happening.result, Happening.abortReason]

/-- A parent's abort under no parent that can abort leaves the watch at its start. -/
theorem step_start_of_not_live {parent : Parent} {h : Happening} (hl : h.Live parent = false) :
    (start parent).step label timeoutMs h = start parent := by
  cases h with
  | settled o => simp [Happening.Live] at hl
  | threw e => simp [Happening.Live] at hl
  | timerFired => simp [Happening.Live] at hl
  | parentAborted r => cases parent <;> simp_all [Happening.Live, Parent.canAbort, start, step]

/-- From its start, a watch is at its start until the first happening that can take
effect, and stopped by that one after it when it is not a throw. -/
theorem run_start (parent : Parent) (hs : List Happening)
    (ht : ∀ h, hs.find? (Happening.Live parent) = some h → h.isThrow = false) :
    (start parent).run label timeoutMs hs =
      match hs.find? (Happening.Live parent) with
      | none => start parent
      | some h => stopped (h.result label timeoutMs) (h.abortReason label timeoutMs) := by
  induction hs with
  | nil => rfl
  | cons h hs ih =>
    rw [run_cons]
    cases hl : h.Live parent
    · have hfind : (h :: hs).find? (Happening.Live parent) = hs.find? (Happening.Live parent) :=
        List.find?_cons_of_neg (by simp [hl])
      rw [step_start_of_not_live hl, ih (hfind ▸ ht), hfind]
    · have hfind := List.find?_cons_of_pos (l := hs) hl
      rw [step_start_of_live hl (ht h hfind), run_stopped, hfind]

/-- A held result stays held: the handlers set it only when it is not in yet, and keep
the rest of the watch as they would without it. -/
theorem step_hold (w : Watch) (o : Except Fault Json) (h : Happening) :
    ({ w with outcome := some o } : Watch).step label timeoutMs h =
      { w.step label timeoutMs h with outcome := some o } := by
  obtain ⟨outcome, settled, aborted, timerSet, listening⟩ := w
  cases h <;> cases settled <;> cases timerSet <;> cases listening <;> rfl

theorem run_hold (w : Watch) (o : Except Fault Json) (hs : List Happening) :
    ({ w with outcome := some o } : Watch).run label timeoutMs hs =
      { w.run label timeoutMs hs with outcome := some o } := by
  induction hs generalizing w with
  | nil => rfl
  | cons h hs ih => rw [run_cons, step_hold, ih, run_cons]

end Watch

theorem withTimeout_aborted (label : Json) (timeoutMs : Float) (r : Fault) (hs : List Happening) :
    withTimeout label timeoutMs (.aborted r) hs = ⟨false, .stopped (.error r) (some r)⟩ := rfl

theorem withTimeout_of_not_aborted {label : Json} {timeoutMs : Float} {parent : Parent}
    (hp : ∀ r, parent ≠ .aborted r) (hs : List Happening) :
    withTimeout label timeoutMs parent hs = ⟨true, (Watch.start parent).run label timeoutMs hs⟩ := by
  cases parent with
  | absent => rfl
  | pending => rfl
  | aborted r => exact absurd rfl (hp r)

/-- In the first `k` items of `pre ++ h :: post`, where `h` is the first to pass `p`,
the first to pass `p` is `h` once `k` reaches past `pre`. -/
theorem find?_take_of_first {α : Type} {p : α → Bool} {pre post : List α} {h : α}
    (hpre : ∀ g ∈ pre, p g = false) (hh : p h = true) (k : Nat) :
    ((pre ++ h :: post).take k).find? p = if k ≤ pre.length then none else some h := by
  split_ifs with hk
  · rw [List.take_append_of_le_length hk, List.find?_eq_none]
    intro g hg
    simp [hpre g (List.mem_of_mem_take hg)]
  · obtain ⟨m, hm⟩ : ∃ m, k - pre.length = m + 1 := ⟨k - pre.length - 1, by omega⟩
    have hnone : pre.find? p = none := List.find?_eq_none.2 fun g hg => by simp [hpre g hg]
    rw [List.take_append, List.take_of_length_le (by omega), hm, List.take_succ_cons,
      List.find?_append, hnone, List.find?_cons_of_pos hh]
    rfl

/-- A watched call that does not throw as it is made settles once, with what happens to
it first. Under a parent already
aborted the call is not made, and it fails with the parent's reason, which also aborts
its signal. Otherwise the call is made, and along happenings `pre ++ h :: post` of which
`h` is the first that can take effect, the watch is at its start before `h` and stopped
from `h` on, with `h`'s result and abort reason: the call's outcome and no abort, or the
timeout's error, or the parent's reason, as the error and as the signal's reason. Nothing
after `h` changes it, and the timer is cleared and the listener removed. -/
theorem withTimeout_settles_once (label : Json) (timeoutMs : Float) (parent : Parent)
    (pre : List Happening) (h : Happening) (post : List Happening) :
    (∀ r hs, parent = .aborted r →
      withTimeout label timeoutMs parent hs = ⟨false, .stopped (.error r) (some r)⟩) ∧
    ((∀ r, parent ≠ .aborted r) → (∀ g ∈ pre, g.Live parent = false) → h.Live parent = true →
      h.isThrow = false →
      ∀ k, withTimeout label timeoutMs parent ((pre ++ h :: post).take k) =
        ⟨true, if k ≤ pre.length then .start parent
          else .stopped (h.result label timeoutMs) (h.abortReason label timeoutMs)⟩) := by
  refine ⟨fun r hs hr => hr ▸ withTimeout_aborted label timeoutMs r hs, fun hp hpre hh ht k => ?_⟩
  have hfirst := @find?_take_of_first _ _ pre post h hpre hh k
  have hthrow : ∀ g, ((pre ++ h :: post).take k).find? (Happening.Live parent) = some g →
      g.isThrow = false := by
    intro g hg
    rw [hfirst] at hg
    split_ifs at hg
    cases hg
    exact ht
  rw [withTimeout_of_not_aborted hp, Watch.run_start parent _ hthrow, hfirst]
  split_ifs <;> rfl

/-- A call that throws as it is made fails with what it threw, and its watch goes on as
if the call had just been made: the timer is still set and the listener attached, so
what happens after can still abort the call's signal. -/
theorem withTimeout_of_throw {label : Json} {timeoutMs : Float} {parent : Parent}
    (hp : ∀ r, parent ≠ .aborted r) {pre : List Happening} (hpre : ∀ g ∈ pre, g.Live parent = false)
    (e : Fault) (post : List Happening) :
    withTimeout label timeoutMs parent (pre ++ .threw e :: post) =
      ⟨true, { (Watch.start parent).run label timeoutMs post with outcome := some (.error e) }⟩ := by
  have hnone : pre.find? (Happening.Live parent) = none :=
    List.find?_eq_none.2 fun g hg => by simp [hpre g hg]
  have hquiet : (Watch.start parent).run label timeoutMs pre = Watch.start parent := by
    rw [Watch.run_start parent pre (by simp [hnone]), hnone]
  rw [withTimeout_of_not_aborted hp, Watch.run_append, hquiet, Watch.run_cons]
  exact congrArg (Timed.mk true) (Watch.run_hold (Watch.start parent) (.error e) post)

/-- A call labelled `op` under a timeout of 50 ms that throws `boom` as it is made has its
result, yet its timer is still set, and when the timer fires it aborts the call's signal
with the timeout, though the timeout was not what happened first. -/
theorem thrown_call_aborted_by_timer :
    let boom : Fault := .plain (Text.ofString "boom")
    (withTimeout (Json.ofString "op") 50 .absent [.threw boom]).watch.outcome = some (.error boom) ∧
      (withTimeout (Json.ofString "op") 50 .absent [.threw boom]).watch.timerSet = true ∧
      (withTimeout (Json.ofString "op") 50 .absent [.threw boom, .timerFired]).watch =
        ⟨some (.error boom), true, some (.callTimeout (Json.ofString "op") (.num 50)), false, false⟩ :=
  ⟨rfl, rfl, rfl⟩

theorem mem_insertAt {t : Float} {h x : Happening} :
    ∀ {l : List (Float × Happening)}, x ∈ (insertAt t h l).map Prod.snd ↔ x = h ∨ x ∈ l.map Prod.snd
  | [] => by simp [insertAt]
  | (t', h') :: rest => by
    unfold insertAt
    split_ifs
    · simp
    · simp only [List.map_cons, List.mem_cons, mem_insertAt]
      tauto

theorem timerFired_mem_schedule (op : Settling) (outcome : Except Fault Json) (timeoutMs : Float)
    (parentIn : Option Float) (reason : Fault) :
    Happening.timerFired ∈ schedule op outcome timeoutMs parentIn reason := by
  cases op <;> simp [schedule, mem_insertAt]

theorem not_isThrow_of_mem_schedule {op : Settling} {outcome : Except Fault Json} {timeoutMs : Float}
    {parentIn : Option Float} {reason : Fault} {g : Happening}
    (hg : g ∈ schedule op outcome timeoutMs parentIn reason) : g.isThrow = false := by
  cases op <;> cases parentIn <;> simp only [schedule, Option.map_none, Option.map_some, Option.getD_none,
    Option.getD_some, List.map_cons, List.mem_cons, mem_insertAt, List.map_nil, List.not_mem_nil,
    or_false] at hg <;> rcases hg with rfl | rfl | rfl | rfl <;> rfl

/-- A call with known timings always settles: its timeout is among its happenings, and
it never throws. -/
theorem schedule_settles (label : Json) (op : Settling) (outcome : Except Fault Json)
    (timeoutMs : Float) (parent : Parent) (parentIn : Option Float) (reason : Fault) :
    (withTimeout label timeoutMs parent
      (schedule op outcome timeoutMs parentIn reason)).watch.outcome.isSome := by
  by_cases hp : ∃ r, parent = .aborted r
  · obtain ⟨r, rfl⟩ := hp
    rfl
  · rw [withTimeout_of_not_aborted (fun r hr => hp ⟨r, hr⟩),
      Watch.run_start parent _ fun g hg => not_isThrow_of_mem_schedule (List.mem_of_find?_eq_some hg)]
    obtain ⟨h, hh⟩ := Option.isSome_iff_exists.1 ((List.find?_isSome (p := Happening.Live parent)).2
      ⟨_, timerFired_mem_schedule op outcome timeoutMs parentIn reason, rfl⟩)
    rw [hh]
    rfl

theorem Script.timedReport_ok {t : Timed} (h : t.watch.outcome.isSome) :
    ∃ j, Script.timedReport t = .ok j := by
  obtain ⟨o, ho⟩ := Option.isSome_iff_exists.1 h
  unfold Script.timedReport
  rw [ho]
  exact ⟨_, rfl⟩

/-- A timed-call script always answers. -/
theorem Script.runTimed_answers (req : Json) : ∃ j, Script.runTimed req = .ok j :=
  Script.timedReport_ok (schedule_settles _ _ _ _ _ _ _)

end LaneGate
