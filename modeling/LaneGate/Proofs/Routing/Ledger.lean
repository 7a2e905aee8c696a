import LaneGate.Routing.Cost
import LaneGate.Proofs.Clock.Calendar
/-!
# The spending ledger follows the calendar

The ledger keeps two totals, the spending of the current day and of the current
month, and starts each from zero at the first usage recorded on a new day (or in a new
month). Whether the day is new is decided by comparing texts: the first ten
characters of the ISO form of the usage's time against those of the time the daily
total last started from zero (seven characters for the month).

## What is proved

* `Ledger.record_ok`: at clock readings that are dates, recording succeeds, and each
  total starts again exactly when the day (month) text of now differs from that of
  the total's last start.
* `Ledger.recordAll_tracks`: recording usages at dates that never go back, in years
  0 … 9999, keeps the daily total equal to the sum of the costs of the usages on the
  UTC day of the last one, and the monthly total to the sum of those in its UTC month
  (with its year); the usages of that day are the last ones of that month. This is
  the invariant of the run, from one step (`Ledger.Tracks.record`).
* `Ledger.totals_track_last_usage`: so the figures every read reports (`status`,
  `withinBudget`, `shouldAlert`) are those of the day and month of the last usage.
  No read looks at the clock: on a day with no usage yet, the figures of the last
  day with one are still reported (`Ledger.budget_read_keeps_last_day`).
-/

namespace LaneGate

open Clock

/-- One usage recorded in the ledger: its provider, tokens and cost as given, and the
clock reading, a date, at which it is recorded. -/
structure Charge where
  /-- The provider used. -/
  provider : String
  /-- The tokens used. -/
  tokens : Primitive
  /-- What it cost. -/
  cost : Primitive
  /-- When it is recorded. -/
  time : Stamp

namespace Charge

/-- The total of the charges' costs, added in order from zero. -/
def total (cs : List Charge) : Primitive := cs.foldl (fun s c => s.add c.cost) (.num 0)

@[simp] theorem total_nil : total [] = .num 0 := rfl

theorem total_append_single (cs : List Charge) (c : Charge) :
    total (cs ++ [c]) = (total cs).add c.cost := by
  simp [total, List.foldl_append]

/-- The charges recorded on the UTC day of an instant. -/
def onDay (cs : List Charge) (t : Int) : List Charge := cs.filter fun c => dayOf c.time.ms = dayOf t

/-- The charges recorded in the UTC month (and year) of an instant. -/
def inMonth (cs : List Charge) (t : Int) : List Charge := cs.filter fun c => monthOf c.time.ms = monthOf t

/-- The time of the last of the charges, or `start` when there is none. -/
def lastAt (start : Int) (cs : List Charge) : Int := cs.foldl (fun _ c => c.time.ms) start

/-- **The day is the tail of the month.** Of charges in time order, none after
`last`, those on the day of `last` are the last ones of its month: a charge of the
month before the day's first is on an earlier day, and every charge after a charge of
that day is on it too. -/
theorem onDay_suffix_inMonth : ∀ {cs : List Charge} {last : Int},
    cs.Pairwise (fun a b => a.time.ms ≤ b.time.ms) → (∀ c ∈ cs, c.time.ms ≤ last) →
    onDay cs last <:+ inMonth cs last
  | [], _, _, _ => List.suffix_refl _
  | c :: cs, last, hs, hb => by
    obtain ⟨hc, hs⟩ := List.pairwise_cons.1 hs
    have ih := onDay_suffix_inMonth hs fun x hx => hb x (List.mem_cons_of_mem c hx)
    by_cases hd : dayOf c.time.ms = dayOf last
    · -- the charges from `c` on lie between `c` and `last`, all on one day
      have hall : ∀ x ∈ c :: cs, dayOf x.time.ms = dayOf last := by
        intro x hx
        have hlast := dayOf_le (hb x hx)
        rcases List.mem_cons.1 hx with rfl | hx
        · exact hd
        · have := dayOf_le (hc x hx)
          omega
      have hday : onDay (c :: cs) last = c :: cs :=
        List.filter_eq_self.2 fun x hx => decide_eq_true (hall x hx)
      have hmonth : inMonth (c :: cs) last = c :: cs :=
        List.filter_eq_self.2 fun x hx => decide_eq_true (monthOf_eq_of_dayOf_eq (hall x hx))
      simp only [hday, hmonth, List.suffix_refl]
    · by_cases hm : monthOf c.time.ms = monthOf last
      · simp only [onDay, inMonth, List.filter_cons, hd, hm, decide_true, decide_false,
          Bool.false_eq_true, if_false, if_true]
        exact ih.trans (List.suffix_cons c _)
      · simp only [onDay, inMonth, List.filter_cons, hd, hm, decide_false, Bool.false_eq_true, if_false]
        exact ih

end Charge

namespace Ledger

/-- Records charges in order; a charge that fails stops the run. -/
def recordAll (l : Ledger) : List Charge → Except Fault Ledger
  | [] => .ok l
  | c :: cs =>
    match l.record c.provider c.tokens c.cost c.time.value with
    | .ok l => l.recordAll cs
    | .error f => .error f

/-! ### One usage -/

/-- **Recording at dates.** When now and the starts of both totals are dates,
recording succeeds; a total starts again from zero, at now, exactly when the day
(month) text of now differs from that of its last start, and the cost is then added
to it. -/
theorem record_ok (l : Ledger) (provider : String) (tokens cost : Primitive) {now : Float}
    {t day month : Int} (ht : clip? now = some t) (hd : clip? l.lastDailyReset = some day)
    (hm : clip? l.lastMonthlyReset = some month) :
    ∃ l', l.record provider tokens cost now = .ok l' ∧ l'.limits = l.limits ∧
      l'.dailySpent = (if dayText t = dayText day then l.dailySpent else .num 0).add cost ∧
      l'.lastDailyReset = (if dayText t = dayText day then l.lastDailyReset else now) ∧
      l'.monthlySpent = (if monthText t = monthText month then l.monthlySpent else .num 0).add cost ∧
      l'.lastMonthlyReset = (if monthText t = monthText month then l.lastMonthlyReset else now) := by
  unfold record
  rw [ht, hd, hm]
  by_cases hday : dayText t = dayText day <;> by_cases hmon : monthText t = monthText month <;>
    simp [hday, hmon]

/-! ### The run -/

/-- What the ledger holds after the charges `cs`, the last at `last` (or, with no
charge, created at `last`): both totals started at dates of years 0 … 9999 in the day
and month of `last`, the totals are the costs of the charges of that day and month,
and no charge came after `last`. -/
structure Tracks (l : Ledger) (cs : List Charge) (last : Int) : Prop where
  /-- The daily total started on the day of `last`. -/
  daily_start : ∃ s : Stamp, l.lastDailyReset = s.value ∧ FourDigitYear s.ms ∧ dayOf s.ms = dayOf last
  /-- The monthly total started in the month of `last`. -/
  monthly_start : ∃ s : Stamp, l.lastMonthlyReset = s.value ∧ FourDigitYear s.ms ∧ monthOf s.ms = monthOf last
  /-- The daily total is the costs of the charges of that day. -/
  daily : l.dailySpent = Charge.total (Charge.onDay cs last)
  /-- The monthly total is the costs of the charges of that month. -/
  monthly : l.monthlySpent = Charge.total (Charge.inMonth cs last)
  /-- No charge came after `last`. -/
  before : ∀ c ∈ cs, c.time.ms ≤ last

/-- A new ledger holds no charge, and its totals start at its creation. -/
theorem Tracks.create (limits : Limits) (customCosts : List (String × Json)) (s : Stamp)
    (hs : FourDigitYear s.ms) : Tracks (create limits customCosts s.value) [] s.ms where
  daily_start := ⟨s, rfl, hs, rfl⟩
  monthly_start := ⟨s, rfl, hs, rfl⟩
  daily := rfl
  monthly := rfl
  before := by simp

/-- Among charges no later than `last`, those on the day of a later charge `c` of
another day are `c` alone: the day of a charge is never after the day of `last`. -/
theorem onDay_append_new {cs : List Charge} {last : Int} {c : Charge}
    (hb : ∀ x ∈ cs, x.time.ms ≤ last) (hle : last ≤ c.time.ms) (hne : dayOf c.time.ms ≠ dayOf last) :
    Charge.onDay (cs ++ [c]) c.time.ms = [c] := by
  have hlast := dayOf_le hle
  unfold Charge.onDay
  rw [List.filter_append, List.filter_eq_nil_iff.2 fun x hx => ?_]
  · simp
  · have := dayOf_le (hb x hx)
    simp only [decide_eq_true_eq]
    omega

theorem inMonth_append_new {cs : List Charge} {last : Int} {c : Charge}
    (hb : ∀ x ∈ cs, x.time.ms ≤ last) (hle : last ≤ c.time.ms) (hne : monthOf c.time.ms ≠ monthOf last) :
    Charge.inMonth (cs ++ [c]) c.time.ms = [c] := by
  have hlast := monthOf_le hle
  unfold Charge.inMonth
  rw [List.filter_append, List.filter_eq_nil_iff.2 fun x hx => ?_]
  · simp
  · have := monthOf_le (hb x hx)
    simp only [decide_eq_true_eq]
    omega

theorem onDay_append_same {cs : List Charge} {last : Int} {c : Charge}
    (he : dayOf c.time.ms = dayOf last) :
    Charge.onDay (cs ++ [c]) c.time.ms = Charge.onDay cs last ++ [c] := by
  simp [Charge.onDay, List.filter_append, he]

theorem inMonth_append_same {cs : List Charge} {last : Int} {c : Charge}
    (he : monthOf c.time.ms = monthOf last) :
    Charge.inMonth (cs ++ [c]) c.time.ms = Charge.inMonth cs last ++ [c] := by
  simp [Charge.inMonth, List.filter_append, he]

/-- **One step of the run.** Recording a charge no earlier than `last`, at a date of
a year 0 … 9999, succeeds and keeps the ledger tracking the day and month of the new
charge. -/
theorem Tracks.record {l : Ledger} {cs : List Charge} {last : Int} (h : Tracks l cs last)
    (c : Charge) (hle : last ≤ c.time.ms) (hc : FourDigitYear c.time.ms) :
    ∃ l', l.record c.provider c.tokens c.cost c.time.value = .ok l' ∧ l'.limits = l.limits ∧
      Tracks l' (cs ++ [c]) c.time.ms := by
  obtain ⟨sd, hsd, hyd, hdd⟩ := h.daily_start
  obtain ⟨sm, hsm, hym, hmm⟩ := h.monthly_start
  obtain ⟨l', hr, hlim, hdaily, hdreset, hmonthly, hmreset⟩ :=
    record_ok l c.provider c.tokens c.cost c.time.dated (hsd ▸ sd.dated) (hsm ▸ sm.dated)
  refine ⟨l', hr, hlim, ?_⟩
  -- the texts compared name the day and the month, as both years have four digits
  have hday : dayText c.time.ms = dayText sd.ms ↔ dayOf c.time.ms = dayOf last := by
    rw [dayText_eq_iff hc hyd, hdd]
  have hmon : monthText c.time.ms = monthText sm.ms ↔ monthOf c.time.ms = monthOf last := by
    rw [monthText_eq_iff hc hym, hmm]
  have hbefore : ∀ x ∈ cs ++ [c], x.time.ms ≤ c.time.ms := by
    intro x hx
    rcases List.mem_append.1 hx with hx | hx
    · exact Int.le_trans (h.before x hx) hle
    · obtain rfl := List.mem_singleton.1 hx
      exact Int.le_refl _
  have hD : (∃ s : Stamp, l'.lastDailyReset = s.value ∧ FourDigitYear s.ms ∧
      dayOf s.ms = dayOf c.time.ms) ∧ l'.dailySpent = Charge.total (Charge.onDay (cs ++ [c]) c.time.ms) := by
    by_cases hd : dayOf c.time.ms = dayOf last
    · refine ⟨⟨sd, ?_, hyd, hdd.trans hd.symm⟩, ?_⟩
      · rw [hdreset, if_pos (hday.2 hd), hsd]
      · rw [hdaily, if_pos (hday.2 hd), h.daily, onDay_append_same hd, Charge.total_append_single]
    · refine ⟨⟨c.time, ?_, hc, rfl⟩, ?_⟩
      · rw [hdreset, if_neg (mt hday.1 hd)]
      · rw [hdaily, if_neg (mt hday.1 hd), onDay_append_new h.before hle hd]
        rfl
  have hM : (∃ s : Stamp, l'.lastMonthlyReset = s.value ∧ FourDigitYear s.ms ∧
      monthOf s.ms = monthOf c.time.ms) ∧
      l'.monthlySpent = Charge.total (Charge.inMonth (cs ++ [c]) c.time.ms) := by
    by_cases hm : monthOf c.time.ms = monthOf last
    · refine ⟨⟨sm, ?_, hym, hmm.trans hm.symm⟩, ?_⟩
      · rw [hmreset, if_pos (hmon.2 hm), hsm]
      · rw [hmonthly, if_pos (hmon.2 hm), h.monthly, inMonth_append_same hm, Charge.total_append_single]
    · refine ⟨⟨c.time, ?_, hc, rfl⟩, ?_⟩
      · rw [hmreset, if_neg (mt hmon.1 hm)]
      · rw [hmonthly, if_neg (mt hmon.1 hm), inMonth_append_new h.before hle hm]
        rfl
  exact ⟨hD.1, hM.1, hD.2, hM.2, hbefore⟩

/-- **The run.** Recording charges in time order, none before `last` and all at dates
of years 0 … 9999, succeeds, keeps the limits, and keeps the ledger tracking the day
and month of the last charge. -/
theorem Tracks.recordAll {l : Ledger} {cs : List Charge} {last : Int} (h : Tracks l cs last) :
    ∀ (ds : List Charge), ds.Pairwise (fun a b => a.time.ms ≤ b.time.ms) →
      (∀ d ∈ ds, last ≤ d.time.ms ∧ FourDigitYear d.time.ms) →
      ∃ l', l.recordAll ds = .ok l' ∧ l'.limits = l.limits ∧
        Tracks l' (cs ++ ds) (Charge.lastAt last ds)
  | [], _, _ => ⟨l, rfl, rfl, by simpa [Charge.lastAt] using h⟩
  | d :: ds, hs, hd => by
    obtain ⟨hdds, hs⟩ := List.pairwise_cons.1 hs
    obtain ⟨hle, hy⟩ := hd d List.mem_cons_self
    obtain ⟨l₁, hr₁, hlim₁, h₁⟩ := h.record d hle hy
    obtain ⟨l₂, hr₂, hlim₂, h₂⟩ :=
      h₁.recordAll ds hs fun x hx => ⟨hdds x hx, (hd x (List.mem_cons_of_mem d hx)).2⟩
    refine ⟨l₂, ?_, hlim₂.trans hlim₁, ?_⟩
    · rw [Ledger.recordAll, hr₁]
      exact hr₂
    · rw [List.append_assoc, List.singleton_append] at h₂
      exact h₂

/-! ### Reads -/

/-- The status fails only when the start of a total is no date, and reports the
totals rounded to four places. -/
theorem status_ok (l : Ledger) (hd : (clip? l.lastDailyReset).isSome) (hm : (clip? l.lastMonthlyReset).isSome) :
    ∃ st, l.status = .ok st ∧ st.limits = l.limits ∧
      st.dailySpent = Decimal.roundTo l.dailySpent.toNumber 4 ∧
      st.monthlySpent = Decimal.roundTo l.monthlySpent.toNumber 4 := by
  have hdated : ((clip? l.lastDailyReset).isNone || (clip? l.lastMonthlyReset).isNone) = false := by
    cases h₁ : clip? l.lastDailyReset <;> cases h₂ : clip? l.lastMonthlyReset <;> simp_all
  unfold status
  simp only [hdated, Bool.false_eq_true, if_false]
  exact ⟨_, rfl, rfl, rfl, rfl⟩

theorem withinBudget_eq_true_iff (l : Ledger) (x : Primitive) :
    l.withinBudget x = true ↔
      l.limits.daily.lessThan (l.dailySpent.add x) = false ∧
        (l.monthlySpent.add x).atMost l.limits.monthly = true := by
  unfold withinBudget
  split <;> simp_all

theorem shouldAlert_eq_true_iff (l : Ledger) :
    l.shouldAlert = true ↔
      usage l.dailySpent.toNumber l.limits.daily ≥ l.limits.alert.toNumber ∨
        usage l.monthlySpent.toNumber l.limits.monthly ≥ l.limits.alert.toNumber := by
  simp [shouldAlert]

/-- **The ledger's figures over a run.** From a ledger created at a date, recording
charges in time order, all at dates of years 0 … 9999, succeeds, and the ledger then
tracks the UTC day and month of the last charge (of its creation, with none): the
daily total is the costs of that day's charges added in order, the monthly total those
of that month's, and the day's charges are the last of the month's. Every read
reports these totals: the status, which never fails, rounds them; the budget check
holds when the daily total with the additional cost is not above the daily limit and
the monthly one at most the monthly limit; the alert is raised when either total's
share of a positive limit reaches the alert share. -/
theorem totals_track_last_usage (limits : Limits) (customCosts : List (String × Json))
    (s : Stamp) (cs : List Charge) (hs : FourDigitYear s.ms)
    (hsorted : cs.Pairwise fun a b => a.time.ms ≤ b.time.ms)
    (hcs : ∀ c ∈ cs, s.ms ≤ c.time.ms ∧ FourDigitYear c.time.ms) :
    ∃ l, (create limits customCosts s.value).recordAll cs = .ok l ∧ l.limits = limits ∧
      Tracks l cs (Charge.lastAt s.ms cs) ∧
      Charge.onDay cs (Charge.lastAt s.ms cs) <:+ Charge.inMonth cs (Charge.lastAt s.ms cs) ∧
      (∃ st, l.status = .ok st ∧ st.dailySpent = Decimal.roundTo l.dailySpent.toNumber 4 ∧
        st.monthlySpent = Decimal.roundTo l.monthlySpent.toNumber 4) ∧
      (∀ x, l.withinBudget x = true ↔
        limits.daily.lessThan (l.dailySpent.add x) = false ∧
          (l.monthlySpent.add x).atMost limits.monthly = true) ∧
      (l.shouldAlert = true ↔ usage l.dailySpent.toNumber limits.daily ≥ limits.alert.toNumber ∨
        usage l.monthlySpent.toNumber limits.monthly ≥ limits.alert.toNumber) := by
  obtain ⟨l, hrun, hlim, htr⟩ := (Tracks.create limits customCosts s hs).recordAll cs hsorted hcs
  rw [List.nil_append] at htr
  change l.limits = limits at hlim
  refine ⟨l, hrun, hlim, htr, Charge.onDay_suffix_inMonth hsorted htr.before, ?_, ?_, ?_⟩
  · -- both totals started at dates, so the status does not fail
    obtain ⟨sd, hsd, -, -⟩ := htr.daily_start
    obtain ⟨sm, hsm, -, -⟩ := htr.monthly_start
    obtain ⟨st, hst, -, hdaily, hmonthly⟩ :=
      status_ok l (by rw [hsd, sd.dated]; rfl) (by rw [hsm, sm.dated]; rfl)
    exact ⟨st, hst, hdaily, hmonthly⟩
  · intro x
    rw [withinBudget_eq_true_iff, hlim]
  · rw [shouldAlert_eq_true_iff, hlim]

/-- A ledger created at noon, charged at noon and again at the next midnight: the
totals are then those of the new day and of the month. -/
theorem totals_track_last_usage_across_midnight :
    let noon : Stamp := ⟨1773144000000, 1773144000000, by decide⟩
    let midnight : Stamp := ⟨1773187200000, 1773187200000, by decide⟩
    let cs : List Charge := [⟨"p", .num 10, .num 1, noon⟩, ⟨"p", .num 20, .num 2, midnight⟩]
    let last := Charge.lastAt noon.ms cs
    let limits : Limits := {}
    (FourDigitYear noon.ms ∧ (cs.Pairwise fun a b => a.time.ms ≤ b.time.ms) ∧
      ∀ c ∈ cs, noon.ms ≤ c.time.ms ∧ FourDigitYear c.time.ms) ∧
    ∃ l, (create limits [] noon.value).recordAll cs = .ok l ∧ l.limits = limits ∧
      Tracks l cs last ∧ Charge.onDay cs last <:+ Charge.inMonth cs last ∧
      (∃ st, l.status = .ok st ∧ st.dailySpent = Decimal.roundTo l.dailySpent.toNumber 4 ∧
        st.monthlySpent = Decimal.roundTo l.monthlySpent.toNumber 4) ∧
      (∀ x, l.withinBudget x = true ↔
        limits.daily.lessThan (l.dailySpent.add x) = false ∧
          (l.monthlySpent.add x).atMost limits.monthly = true) ∧
      (l.shouldAlert = true ↔ usage l.dailySpent.toNumber limits.daily ≥ limits.alert.toNumber ∨
        usage l.monthlySpent.toNumber limits.monthly ≥ limits.alert.toNumber) := by
  intro noon midnight cs last limits
  have hs : FourDigitYear noon.ms := by decide
  have hsorted : cs.Pairwise fun a b => a.time.ms ≤ b.time.ms := by decide
  have hcs : ∀ c ∈ cs, noon.ms ≤ c.time.ms ∧ FourDigitYear c.time.ms := by decide
  exact ⟨⟨hs, hsorted, hcs⟩, totals_track_last_usage limits [] noon cs hs hsorted hcs⟩

/-- **Reads do not look at the clock.** A charge of 1 against a daily limit of 1, read
back on the next day: no charge lies on that day, and a day with none would take an
additional 0.5, yet the budget check still counts the charge and refuses it. -/
theorem budget_read_keeps_last_day :
    let noon : Stamp := ⟨1773144000000, 1773144000000, by decide⟩
    let c : Charge := ⟨"p", .num 10, .num 1, noon⟩
    let limits : Limits := { dailyLimit := .num 1 }
    Charge.onDay [c] (noon.ms + dayMs) = [] ∧
      limits.daily.lessThan ((Charge.total []).add (.num 0.5)) = false ∧
      ((create limits [] noon.value).recordAll [c]).toOption.map (·.withinBudget (.num 0.5)) = some false := by
  intro noon c limits
  refine ⟨rfl, by decide, by decide⟩

end Ledger

end LaneGate
