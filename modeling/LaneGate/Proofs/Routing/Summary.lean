import Mathlib.Data.List.DropRight
import LaneGate.Proofs.Routing.Feedback
import LaneGate.Proofs.Clock.Iso
import LaneGate.Wire.Routing
/-!
# The cost summary covers the usages of its window

The ledger keeps the last `maxUsageRecords` usages, each with the ISO text of the
millisecond it was recorded at. A summary over the last `hours` hours reads each
record's text back as a time and keeps those not before the cutoff; it then adds up
their costs and tokens in order, counts them, and groups them by provider in order of
each provider's first usage.

## What is proved

* `Ledger.recordAll_records`: recording charges at dates keeps, as records, the last
  `maxUsageRecords` of all the usages in call order (`List.rtake`).
* `Usage.byProvider` says what the grouping is without the fold: each provider once,
  in order of first usage, with the totals of its own usages; `foldl_addTo` proves the
  summary's fold computes it, one usage at a time (`addTo_byProvider`), and
  `requests_byProvider` that the counts of the groups add up to the number of usages.
* `filter_window`: as the ISO text of a time reads back to it, the window the summary
  keeps is that of the charges' own times.
* `Ledger.summary_covers_window`: from a ledger created at a date, after any charges
  at dates, the summary succeeds and its totals and groups are those of the retained
  charges at or after the cutoff.

The totals are added as primitives in the order of the usages; a group's totals are
added in the order of that provider's usages, so the tokens of the groups need not add
up, as doubles, to the total. Groups are kept under any provider name; it is the JSON
form of a summary that leaves out members under inherited names such as `__proto__`.
-/

namespace LaneGate

open Clock

/-- The record a charge leaves in the ledger: its time as ISO text. -/
def Charge.usage (c : Charge) : Usage := ⟨c.provider, c.tokens, c.cost, iso c.time.ms⟩

/-! ### The last records -/

section Retained

variable {α β : Type} {xs ys : List α} {n : Nat}

theorem length_rtake_le (xs : List α) (n : Nat) : (xs.rtake n).length ≤ n := by
  simp only [List.rtake, List.length_drop]
  omega

theorem rtake_of_length_le (h : xs.length ≤ n) : xs.rtake n = xs := by
  simp only [List.rtake, Nat.sub_eq_zero_of_le h, List.drop_zero]

/-- Keeping the last `n` twice, before and after more come, keeps the last `n` once. -/
theorem rtake_append_rtake : (xs.rtake n ++ ys).rtake n = (xs ++ ys).rtake n := by
  simp only [List.rtake_eq_reverse_take_reverse, List.reverse_append, List.reverse_reverse,
    List.take_append, List.take_take]
  congr 3
  omega

theorem map_rtake (f : α → β) (xs : List α) (n : Nat) : (xs.rtake n).map f = (xs.map f).rtake n := by
  simp only [List.rtake, List.map_drop, List.length_map]

end Retained

namespace Ledger

/-- **One record.** A usage recorded now, at a date, joins the records at the end, and
the last `maxUsageRecords` are kept. -/
theorem records_record {l l' : Ledger} {provider : String} {tokens cost : Primitive}
    {now : Float} {t : Int} (ht : clip? now = some t) (h : l.record provider tokens cost now = .ok l') :
    l'.records = (l.records ++ [Usage.mk provider tokens cost (iso t)]).rtake maxUsageRecords := by
  unfold record at h
  rw [ht] at h
  split at h
  · rename_i t' _ _ ht' _ _
    cases Option.some.inj ht'
    injection h with h
    subst h
    simp only [List.rtake]
    split <;> split <;> rfl
  · cases h

/-- **The records of a run.** From a ledger whose totals started at dates and that holds
at most `maxUsageRecords` records, recording charges at dates succeeds, and the records
are then the last `maxUsageRecords` of the old ones and the charges' usages. -/
theorem recordAll_records {l : Ledger} (hl : l.Dated) (hlen : l.records.length ≤ maxUsageRecords) :
    ∀ cs : List Charge, ∃ l', l.recordAll cs = .ok l' ∧ l'.Dated ∧
      l'.records = (l.records ++ cs.map Charge.usage).rtake maxUsageRecords
  | [] => ⟨l, rfl, hl, by rw [List.map_nil, List.append_nil, rtake_of_length_le hlen]⟩
  | c :: cs => by
    obtain ⟨l₁, hr₁, hl₁⟩ := record_dated hl c.provider c.tokens c.cost (by rw [c.time.dated]; rfl)
    have hrec₁ := records_record c.time.dated hr₁
    have hlen₁ : l₁.records.length ≤ maxUsageRecords := hrec₁ ▸ length_rtake_le _ _
    obtain ⟨l₂, hr₂, hl₂, hrec₂⟩ := recordAll_records hl₁ hlen₁ cs
    refine ⟨l₂, ?_, hl₂, ?_⟩
    · rw [recordAll, hr₁]
      exact hr₂
    · rw [hrec₂, hrec₁, rtake_append_rtake, List.map_cons, List.append_assoc, List.singleton_append]
      rfl

end Ledger

/-! ### Totals by provider -/

section Distinct

variable {α : Type} [BEq α] [LawfulBEq α]

/-- Dropping repeats keeps the first of each: one more element joins at the end
exactly when it is new. -/
theorem eraseDups_append_singleton (l : List α) (a : α) :
    (l ++ [a]).eraseDups = if a ∈ l then l.eraseDups else l.eraseDups ++ [a] := by
  rw [List.eraseDups_append, List.cons_removeAll, List.nil_removeAll, List.contains_eq_mem]
  by_cases ha : a ∈ l <;> simp [ha, List.eraseDups_cons]

theorem nodup_eraseDups (l : List α) : l.eraseDups.Nodup := by
  induction l using List.reverseRecOn with
  | nil => exact List.nodup_nil
  | append_singleton l a ih =>
    rw [eraseDups_append_singleton]
    split
    · exact ih
    · rename_i ha
      refine List.nodup_append.2 ⟨ih, List.nodup_singleton a, fun x hx y hy => ?_⟩
      rw [List.mem_singleton.1 hy]
      exact fun h => ha (List.mem_eraseDups.1 (h ▸ hx))

end Distinct

namespace Usage

/-- The totals of usages: costs and tokens added in order from zero, and their count. -/
def totals (us : List Usage) : ProviderTally :=
  ⟨us.foldl (fun s u => s.add u.cost) (.num 0), us.foldl (fun s u => s.add u.tokens) (.num 0), us.length⟩

theorem totals_append_single (us : List Usage) (u : Usage) :
    totals (us ++ [u]) = ⟨(totals us).cost.add u.cost, (totals us).tokens.add u.tokens, (totals us).requests + 1⟩ := by
  simp [totals, List.foldl_append]

/-- Usages by provider: each provider once, in order of its first usage, with the
totals of its own usages. -/
def byProvider (us : List Usage) : List (String × ProviderTally) :=
  (us.map (·.provider)).eraseDups.map fun p => (p, totals (us.filter (·.provider == p)))

theorem filter_eq_nil_of_not_mem {us : List Usage} {p : String} (h : p ∉ us.map (·.provider)) :
    us.filter (·.provider == p) = [] :=
  List.filter_eq_nil_iff.2 fun u hu hp => h (List.mem_map.2 ⟨u, hu, by simpa using hp⟩)

/-- **One usage.** Adding a usage to the groups of the usages before it gives the
groups of all of them: a provider seen before has its totals bumped in place, a new one
joins at the end. -/
theorem addTo_byProvider (us : List Usage) (u : Usage) :
    Ledger.addTo (byProvider us) u = byProvider (us ++ [u]) := by
  have hnames : (us ++ [u]).map (·.provider) = us.map (·.provider) ++ [u.provider] := by simp
  have hany : (byProvider us).any (·.1 == u.provider) = true ↔ u.provider ∈ us.map (·.provider) := by
    simp [byProvider, List.mem_eraseDups]
  unfold Ledger.addTo
  dsimp only
  by_cases hu : u.provider ∈ us.map (·.provider)
  · -- a provider seen before: its group alone is bumped
    rw [if_pos (hany.2 hu)]
    unfold byProvider
    rw [hnames, eraseDups_append_singleton, if_pos hu, List.map_map]
    refine List.map_congr_left fun p _ => ?_
    by_cases hp : p = u.provider
    · subst hp
      simp [totals_append_single]
    · simp [hp, Ne.symm hp]
  · -- a new provider: the groups before are unchanged, and its own joins at the end
    rw [if_neg (mt hany.1 hu)]
    unfold byProvider
    rw [hnames, eraseDups_append_singleton, if_neg hu, List.map_append]
    congr 1
    · refine List.map_congr_left fun p hp => ?_
      have hne : u.provider ≠ p := fun h => hu (h ▸ List.mem_eraseDups.1 hp)
      simp [hne]
    · simp [filter_eq_nil_of_not_mem hu, totals]

/-- **The fold.** The summary's fold of usages into groups computes `byProvider`. -/
theorem foldl_addTo (us : List Usage) : us.foldl Ledger.addTo [] = byProvider us := by
  -- generalize the groups already made to those of any usages before
  suffices h : ∀ pre, us.foldl Ledger.addTo (byProvider pre) = byProvider (pre ++ us) from h []
  induction us with
  | nil => simp
  | cons u us ih =>
    intro pre
    rw [List.foldl_cons, addTo_byProvider, ih, List.append_assoc, List.singleton_append]

/-- The usages counted in groups, added up. -/
def requestsIn (gs : List (String × ProviderTally)) : Nat := gs.foldr (fun g n => g.2.requests + n) 0

@[simp] theorem requestsIn_nil : requestsIn [] = 0 := rfl

@[simp] theorem requestsIn_cons (g : String × ProviderTally) (gs : List (String × ProviderTally)) :
    requestsIn (g :: gs) = g.2.requests + requestsIn gs := rfl

theorem requestsIn_append (gs hs : List (String × ProviderTally)) :
    requestsIn (gs ++ hs) = requestsIn gs + requestsIn hs := by
  induction gs with
  | nil => simp
  | cons g gs ih => simp [ih, Nat.add_assoc]

/-- Adding a usage to groups under distinct names counts it once, whether its
provider's group is bumped or a new one is made. -/
theorem requestsIn_addTo {gs : List (String × ProviderTally)} (h : (gs.map (·.1)).Nodup) (u : Usage) :
    requestsIn (Ledger.addTo gs u) = requestsIn gs + 1 := by
  unfold Ledger.addTo
  dsimp only
  split
  · rename_i hany
    -- the names are distinct, so exactly one group is bumped: induction on the groups
    induction gs with
    | nil => simp at hany
    | cons g gs ih =>
      obtain ⟨n, c⟩ := g
      obtain ⟨hn, hgs⟩ := List.nodup_cons.1 h
      simp only [List.map_cons, requestsIn_cons]
      by_cases hp : n = u.provider
      · -- the groups after it are under other names, so they are left as they are
        have hrest : gs.map (fun g : String × ProviderTally => if (g.1 == u.provider) = true then
            (g.1, (⟨g.2.cost.add u.cost, g.2.tokens.add u.tokens, g.2.requests + 1⟩ : ProviderTally))
            else (g.1, g.2)) = gs := by
          refine (List.map_congr_left fun g hg => if_neg ?_).trans (List.map_id _)
          simpa [← hp] using fun h => hn (List.mem_map.2 ⟨g, hg, h⟩)
        rw [if_pos (by simp [hp]), hrest]
        dsimp only
        omega
      · have hany' : (gs.any fun g => g.1 == u.provider) = true := by simpa [hp] using hany
        rw [if_neg (by simpa using hp), ih hgs hany']
        dsimp only
        omega
  · simp [requestsIn_append]

theorem map_fst_byProvider (us : List Usage) : (byProvider us).map (·.1) = (us.map (·.provider)).eraseDups := by
  simp [byProvider, List.map_map, Function.comp_def]

/-- **The counts add up.** The usages counted in the groups add up to the number of
usages. -/
theorem requests_byProvider (us : List Usage) : requestsIn (byProvider us) = us.length := by
  induction us using List.reverseRecOn with
  | nil => rfl
  | append_singleton us u ih =>
    have hd : ((byProvider us).map (·.1)).Nodup := by
      rw [map_fst_byProvider]
      exact nodup_eraseDups _
    rw [← addTo_byProvider, requestsIn_addTo hd, ih, List.length_append, List.length_singleton]

end Usage

/-- A group's totals as a summary reports them: the cost rounded to four places. -/
def ProviderTally.rounded (t : ProviderTally) : ProviderCost := ⟨Decimal.roundTo t.cost.toNumber 4, t.tokens, t.requests⟩

/-! ### The window -/

/-- **The window.** A record's ISO text reads back to the time of its charge, so the
records the summary keeps are those of the charges not before the cutoff. -/
theorem filter_window (cs : List Charge) (cutoff : Float) :
    (cs.map Charge.usage).filter (fun u => readDate u.recordedAt ≥ cutoff) =
      (cs.filter fun c => Float.ofInt c.time.ms ≥ cutoff).map Charge.usage := by
  rw [List.filter_map]
  refine congrArg (List.map Charge.usage) (List.filter_congr fun c _ => ?_)
  simp only [Function.comp_apply, Charge.usage, Stamp.readDate_iso]

namespace Ledger

/-- **The summary.** Of a ledger whose totals started at dates, the summary succeeds:
its totals are those of the records not before the cutoff, and its groups those of
the same records by provider. -/
theorem summary_ok {l : Ledger} (hl : l.Dated) (hours : Json) (now : Float) :
    ∃ s, l.summary hours now = .ok s ∧ s.periodHours = hours ∧
      (∃ st, l.status = .ok st ∧ s.budget = st) ∧
      let recent := l.records.filter fun u =>
        readDate u.recordedAt ≥ now - (Primitive.ofJson hours).toNumber * 3600000
      s.totalCost = Decimal.roundTo (Usage.totals recent).cost.toNumber 4 ∧
      s.totalTokens = (Usage.totals recent).tokens ∧ s.totalRequests = recent.length ∧
      s.byProvider = (Usage.byProvider recent).map fun g => (g.1, g.2.rounded) := by
  obtain ⟨st, hst, -⟩ := status_ok l hl.1 hl.2
  unfold summary
  rw [hst]
  refine ⟨_, rfl, rfl, ⟨st, rfl, rfl⟩, rfl, rfl, rfl, ?_⟩
  dsimp only
  rw [Usage.foldl_addTo]
  rfl

/-- A ledger created at a date records any charges at dates, and keeps as records the
usages of the last `maxUsageRecords` of them. -/
theorem create_recordAll (limits : Limits) (customCosts : List (String × Json)) (start : Stamp)
    (cs : List Charge) :
    ∃ l, (create limits customCosts start.value).recordAll cs = .ok l ∧ l.Dated ∧
      l.records = (cs.rtake maxUsageRecords).map Charge.usage := by
  have hdated : (create limits customCosts start.value).Dated := by
    have h : (clip? start.value).isSome := by rw [start.dated]; rfl
    exact ⟨h, h⟩
  obtain ⟨l, hrun, hl, hrec⟩ := recordAll_records hdated (Nat.zero_le _) cs
  refine ⟨l, hrun, hl, ?_⟩
  rw [hrec, map_rtake]
  rfl

/-- **The summary covers its window.** From a ledger created at a date, recording any
charges at dates succeeds and keeps as records the usages of the last
`maxUsageRecords` charges, in order. A summary then succeeds whatever the hours and
the clock: it reports the hours as given and the budget status, and over the retained
charges whose time is not before the cutoff it reports their count, their tokens and
their cost added in order, and their groups by provider, each with its own usages'
totals; the groups' counts add up to the count. -/
theorem summary_covers_window (limits : Limits) (customCosts : List (String × Json)) (start : Stamp)
    (cs : List Charge) (hours : Json) (now : Float) :
    ∃ l, (create limits customCosts start.value).recordAll cs = .ok l ∧
      l.records = (cs.rtake maxUsageRecords).map Charge.usage ∧
      ∃ s, l.summary hours now = .ok s ∧ s.periodHours = hours ∧
        (∃ st, l.status = .ok st ∧ s.budget = st) ∧
        let recent := ((cs.rtake maxUsageRecords).filter fun c =>
          Float.ofInt c.time.ms ≥ now - (Primitive.ofJson hours).toNumber * 3600000).map Charge.usage
        s.totalRequests = recent.length ∧ s.totalTokens = (Usage.totals recent).tokens ∧
        s.totalCost = Decimal.roundTo (Usage.totals recent).cost.toNumber 4 ∧
        s.byProvider = (Usage.byProvider recent).map (fun g => (g.1, g.2.rounded)) ∧
        Usage.requestsIn (Usage.byProvider recent) = s.totalRequests := by
  obtain ⟨l, hrun, hl, hrec⟩ := create_recordAll limits customCosts start cs
  obtain ⟨s, hs, hhours, hbudget, hcost, htokens, hcount, hgroups⟩ := summary_ok hl hours now
  rw [hrec, filter_window] at hcost htokens hcount hgroups
  refine ⟨l, hrun, hrec, s, hs, hhours, hbudget, ?_, htokens, hcost, hgroups, ?_⟩
  · rw [hcount, List.length_map]
  · rw [Usage.requests_byProvider, hcount, List.length_map]

/-- **Groups the JSON form leaves out.** A usage under the provider name `__proto__` is
counted in the summary, but the JSON form of its groups has no member for it: the
groups written add up to no request where one was made. -/
theorem summary_json_drops_proto_group :
    let start : Stamp := ⟨1773144000000, 1773144000000, by decide⟩
    ∃ l s, (create {} [] start.value).recordAll [⟨"__proto__", .num 5, .num 1, start⟩] = .ok l ∧
      l.summary (.num 1) start.value = .ok s ∧ s.totalRequests = 1 ∧
      (Wire.summaryJson s).get? "byProvider" = some (.obj []) := by
  intro start
  obtain ⟨l, hrun, hl, hrec⟩ := create_recordAll {} [] start [⟨"__proto__", .num 5, .num 1, start⟩]
  obtain ⟨s, hs, -, -, -, -, hcount, hgroups⟩ := summary_ok hl (.num 1) start.value
  have hwin : Float.ofInt start.ms ≥ start.value - (Primitive.ofJson (.num 1)).toNumber * 3600000 := by
    decide
  rw [hrec, rtake_of_length_le (by decide), filter_window, List.filter_singleton, decide_eq_true hwin] at hcount hgroups
  refine ⟨l, s, hrun, hs, hcount, ?_⟩
  simp [Wire.summaryJson, Json.get?, hgroups, Usage.byProvider, Json.ownMembers, Json.inheritedNames,
    Charge.usage]

end Ledger

end LaneGate
