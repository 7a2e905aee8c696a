import LaneGate.Proofs.Routing.Candidates
import LaneGate.Proofs.Sorting.Permutation
import LaneGate.Proofs.Breaker.Registry
/-!
# Routing a request

`Router.route` lists the providers (rolling over their windows), filters them
(`Router.candidates_eq`), and then refuses when there is no provider at all, falls
back to the first provider when there is no candidate, and otherwise lets the
strategy choose among the candidates and counts the request.

* `Router.select_picks` — every strategy chooses one of the candidates and names
  distinct other candidates as alternatives (`Picks`): at most three, except a
  failover, which names every other candidate. The rankings are rearrangements of
  the candidates (`Sorting.sortOn_perm`), so no candidate is named twice and none is
  made up.
* `countIn_bump` — counting a request adds one to the count of its own name and
  leaves every other count as it was, unless the name is `__proto__`, where the
  ordinary object keeping the counts loses it (`bump_prototype`).
* `Router.route_contract` — the contract of a request, for every router whose
  providers have distinct names that no ordinary object inherits and whose
  breakers' names match only themselves, at a time that is a date: a refusal
  exactly when no provider is registered, and then nothing changes; the fallback,
  counted as such, when no provider is a candidate; otherwise a choice among the
  candidates (`Picks`), counted under the provider and the strategy (`Counted`).
* `Router.route_to_prototype_uncounted` — the names condition is needed: a request
  routed to the one provider, named `__proto__`, is counted in the total and nowhere
  by provider.
-/

namespace LaneGate

/-! ### Counts by name -/

/-- The count kept under a name in a list of named counts, zero when there is none. -/
def countIn (xs : List (String × Nat)) (name : String) : Nat := (xs.lookup name).getD 0

/-- A name has a count exactly when one of the entries is under it. -/
theorem isSome_lookup (xs : List (String × Nat)) (key : String) :
    (xs.lookup key).isSome = xs.any (·.1 == key) := by
  induction xs with
  | nil => rfl
  | cons x xs ih =>
    obtain ⟨k, v⟩ := x
    simp only [List.lookup_cons, List.any_cons]
    by_cases h : key = k
    · subst h
      simp
    · have hb : (key == k) = false := by simp [h]
      have hb' : (k == key) = false := by simp [Ne.symm h]
      simp only [hb, hb', Bool.false_or, ih]

/-- Changing the count of every entry under `key` by `f`: the count of `key` is
changed, every other count stays as it was. -/
theorem lookup_map_upsert (xs : List (String × Nat)) (key n : String) (f : Option Nat → Nat) :
    (xs.map fun (k, v) => if k == key then (k, f (some v)) else (k, v)).lookup n =
      (xs.lookup n).map fun v => if n = key then f (some v) else v := by
  induction xs with
  | nil => rfl
  | cons x xs ih =>
    obtain ⟨k, v⟩ := x
    have hhead : (if k == key then (k, f (some v)) else (k, v)) =
        (k, if k = key then f (some v) else v) := by
      by_cases hk : k = key <;> simp [hk]
    simp only [List.map_cons, hhead, List.lookup_cons]
    by_cases hn : n = k
    · subst hn
      simp
    · have hb : (n == k) = false := by simp [hn]
      simp only [hb, ih]

/-- A count under `__proto__` is lost. -/
theorem bump_prototype (xs : List (String × Nat)) : bump xs Json.prototypeName = xs := by
  simp [bump]

/-- Counting a request under any other `key` adds one to the count of `key` and leaves
every other count as it was. -/
theorem countIn_bump (xs : List (String × Nat)) {key : String} (hkey : key ≠ Json.prototypeName)
    (n : String) : countIn (bump xs key) n = countIn xs n + if n = key then 1 else 0 := by
  have hk : (key == Json.prototypeName) = false := by simpa using hkey
  unfold countIn bump upsert
  rw [hk, if_neg Bool.false_ne_true]
  split
  · -- `key` has entries: each of them grows
    next hany =>
    rw [lookup_map_upsert xs key n fun o => o.getD 0 + 1]
    by_cases hn : n = key
    · subst hn
      obtain ⟨v, hv⟩ := Option.isSome_iff_exists.1 ((isSome_lookup xs n).trans hany)
      simp [hv]
    · cases xs.lookup n <;> simp [hn]
  · -- `key` has no entry: one is added at the end
    next hany =>
    have hnone : xs.lookup key = none := by
      cases h : xs.lookup key with
      | none => rfl
      | some v =>
        have := isSome_lookup xs key
        rw [h, Option.isSome_some] at this
        exact absurd this.symm hany
    rw [List.lookup_append]
    by_cases hn : n = key
    · subst hn
      simp [hnone]
    · have hb : (n == key) = false := by simp [hn]
      cases xs.lookup n <;> simp [hn, hb, List.lookup_cons]

/-! ### What a strategy picks -/

/-- Distinct names of candidates other than `p`. -/
def OtherNames (cs : List Provider) (p : Provider) (ns : List String) : Prop :=
  ns.Nodup ∧ ∀ n ∈ ns, n ≠ p.name ∧ ∃ c ∈ cs, c.name = n

theorem OtherNames.take {cs : List Provider} {p : Provider} {ns : List String}
    (h : OtherNames cs p ns) (k : Nat) : OtherNames cs p (ns.take k) :=
  ⟨h.1.sublist (List.take_sublist k ns), fun n hn => h.2 n (List.mem_of_mem_take hn)⟩

/-- A choice among the candidates `cs`: the chosen provider is one of them, and the
alternatives are distinct names of other candidates, at most `maxAlternatives` of
them except for a failover, which names every other candidate. -/
structure Picks (cs : List Provider) (d : Decision) : Prop where
  chosen : d.provider ∈ cs
  others : OtherNames cs d.provider d.alternatives
  few : d.strategy ≠ .known .failover → d.alternatives.length ≤ maxAlternatives
  failovers : d.strategy = .known .failover → d.alternatives.length + 1 = cs.length

variable {cs : List Provider}

/-- The first of a ranking of candidates with distinct names is a candidate, and the
rest are other candidates, each once. -/
theorem otherNames_rest {p : Provider} {rest : List Provider} (hperm : (p :: rest).Perm cs)
    (hn : (cs.map (·.name)).Nodup) : p ∈ cs ∧ OtherNames cs p (rest.map (·.name)) := by
  have hn' : ((p :: rest).map (·.name)).Nodup := (hperm.map _).nodup_iff.2 hn
  rw [List.map_cons, List.nodup_cons] at hn'
  refine ⟨hperm.subset List.mem_cons_self, hn'.2, fun n hn => ⟨?_, ?_⟩⟩
  · rintro rfl
    exact hn'.1 hn
  · obtain ⟨c, hc, rfl⟩ := List.mem_map.1 hn
    exact ⟨c, hperm.subset (List.mem_cons_of_mem p hc), rfl⟩

/-- The names of the candidates other than `p`, when names are distinct. -/
theorem otherNames_othersThan (hn : (cs.map (·.name)).Nodup) (p : Provider) :
    OtherNames cs p (othersThan cs p) := by
  refine ⟨hn.sublist ((List.filter_sublist (l := cs)).map _), fun n hn => ?_⟩
  obtain ⟨c, hc, rfl⟩ := List.mem_map.1 hn
  obtain ⟨hcs, hne⟩ := List.mem_filter.1 hc
  exact ⟨by simpa using hne, c, hcs, rfl⟩

/-- A position among non-empty candidates, or the first when there is none, is a
candidate. -/
theorem getD_headD_mem (hcs : cs ≠ []) (i : Nat) : cs.getD i (cs.headD default) ∈ cs := by
  obtain ⟨c, rest, rfl⟩ := List.exists_cons_of_ne_nil hcs
  rw [List.getD_eq_getElem?_getD]
  cases h : (c :: rest)[i]? with
  | none => exact List.mem_cons_self
  | some x => exact List.mem_of_getElem? h

theorem headD_mem (hcs : cs ≠ []) : cs.headD default ∈ cs := by
  obtain ⟨c, rest, rfl⟩ := List.exists_cons_of_ne_nil hcs
  exact List.mem_cons_self

/-- A ranking of pairs led by the candidates is led by a candidate, and the rest is a
rearrangement of the other candidates. -/
theorem ranked_perm {β : Type} {key : Provider × β → Float} {l : List (Provider × β)}
    {p : Provider} {x : β} {rest : List (Provider × β)} (hl : (l.map Prod.fst).Perm cs)
    (h : Sorting.sortOn key l = (p, x) :: rest) : (p :: rest.map Prod.fst).Perm cs := by
  have hperm := (Sorting.sortOn_perm key l).map Prod.fst
  rw [h, List.map_cons] at hperm
  exact hperm.trans hl

/-- A ranking of pairs led by non-empty candidates is not empty. -/
theorem ranked_ne_nil {β : Type} (key : Provider × β → Float) {l : List (Provider × β)}
    (hl : (l.map Prod.fst).Perm cs) (hcs : cs ≠ []) : Sorting.sortOn key l ≠ [] := by
  intro h
  have hperm := ((Sorting.sortOn_perm key l).map Prod.fst).trans hl
  rw [h, List.map_nil] at hperm
  exact hcs (List.nil_perm.1 hperm)

/-- A decision led by the first of a ranking of the candidates, naming the first few of
the rest. -/
theorem picks_ranked {d : Decision} {rest : List Provider} (hperm : (d.provider :: rest).Perm cs)
    (hn : (cs.map (·.name)).Nodup) (ha : d.alternatives = (rest.map (·.name)).take maxAlternatives)
    (hs : d.strategy ≠ .known .failover) : Picks cs d := by
  obtain ⟨hp, ho⟩ := otherNames_rest hperm hn
  refine ⟨hp, ha ▸ ho.take maxAlternatives, fun _ => ?_, fun h => absurd h hs⟩
  rw [ha]
  exact List.length_take_le _ _

/-- A failover: led by the first of a ranking of the candidates, naming all the rest. -/
theorem picks_failover {d : Decision} {rest : List Provider} (hperm : (d.provider :: rest).Perm cs)
    (hn : (cs.map (·.name)).Nodup) (ha : d.alternatives = rest.map (·.name))
    (hs : d.strategy = .known .failover) : Picks cs d := by
  obtain ⟨hp, ho⟩ := otherNames_rest hperm hn
  refine ⟨hp, ha ▸ ho, fun h => absurd hs h, fun _ => ?_⟩
  rw [ha, List.length_map, ← hperm.length_eq, List.length_cons]

/-- A decision for one candidate, naming the first few of the others in order. -/
theorem picks_othersThan {d : Decision} (hp : d.provider ∈ cs) (hn : (cs.map (·.name)).Nodup)
    (ha : d.alternatives = (othersThan cs d.provider).take maxAlternatives)
    (hs : d.strategy ≠ .known .failover) : Picks cs d := by
  refine ⟨hp, ha ▸ (otherNames_othersThan hn d.provider).take maxAlternatives, fun _ => ?_,
    fun h => absurd h hs⟩
  rw [ha]
  exact List.length_take_le _ _

/-- What a request routed to a candidate does to the counts: the total and the counts
of the chosen provider and of the strategy grow by one, every other count and the
fallbacks stay as they were. -/
structure Counted (m m' : RouteMetrics) (d : Decision) : Prop where
  total : m'.totalRequests = m.totalRequests + 1
  byProvider : ∀ n, countIn m'.requestsByProvider n =
    countIn m.requestsByProvider n + if n = d.provider.name then 1 else 0
  byStrategy : ∀ n, countIn m'.requestsByStrategy n =
    countIn m.requestsByStrategy n + if n = d.strategy.text then 1 else 0
  fallbacks : m'.fallbackCount = m.fallbackCount

namespace Router

/-- Every strategy picks among non-empty candidates with distinct names (`Picks`),
records itself as the strategy used, and leaves the counts alone. -/
theorem select_picks (r : Router) (hcs : cs ≠ []) (hn : (cs.map (·.name)).Nodup) (text : String)
    (s : Strategy) (cid : Option String) (now : Float) :
    Picks cs (r.select cs text s cid now).1 ∧ (r.select cs text s cid now).1.strategy = .known s ∧
      (r.select cs text s cid now).2.metrics = r.metrics := by
  cases s with
  | costOptimized =>
    have hl : ((cs.map fun p => (p, r.ledger.estimate p text)).map Prod.fst).Perm cs := by
      simp [Function.comp_def]
    simp only [select]
    split
    · next p e rest h =>
      refine ⟨picks_ranked (ranked_perm hl h) hn ?_ (by simp), rfl, rfl⟩
      simp [List.map_take, Function.comp_def]
    · next h => exact absurd h (ranked_ne_nil _ hl hcs)
  | latencyOptimized =>
    simp only [select]
    refine ⟨picks_othersThan ?_ hn rfl (by simp), trivial, trivial⟩
    split
    · exact getD_headD_mem hcs _
    · exact headD_mem hcs
  | qualityOptimized =>
    have hperm := Sorting.sortOn_perm (·.priority) cs
    simp only [select]
    split
    · next p rest h =>
      rw [h] at hperm
      rw [if_neg (by decide)]
      exact ⟨picks_ranked hperm hn (by simp [List.map_take]) (by simp), rfl, rfl⟩
    · next h => exact absurd (List.nil_perm.1 (h ▸ hperm)) hcs
  | balanced =>
    simp only [select]
    split
    · next p sc rest h =>
      have hperm : (p :: rest.map Prod.fst).Perm cs := by
        refine ranked_perm ?_ h
        simp [Function.comp_def, List.map_fst_zip]
      refine ⟨picks_ranked hperm hn ?_ (by simp), rfl, rfl⟩
      simp [List.map_take, Function.comp_def]
    · next h =>
      refine absurd h (ranked_ne_nil _ ?_ hcs)
      simp [Function.comp_def, List.map_fst_zip]
  | failover =>
    have hperm := Sorting.sortOn_perm (·.priority) cs
    simp only [select]
    split
    · next p rest h =>
      rw [h] at hperm
      rw [if_pos (by decide)]
      exact ⟨picks_failover hperm hn rfl rfl, rfl, rfl⟩
    · next h => exact absurd (List.nil_perm.1 (h ▸ hperm)) hcs
  | roundRobin =>
    simp only [select]
    refine ⟨picks_othersThan ?_ hn rfl (by simp), trivial, trivial⟩
    split
    · exact getD_headD_mem hcs _
    · exact headD_mem hcs

/-- With no provider registered, a request is refused and nothing changes. -/
theorem route_of_entries_nil {r : Router} (reg : Breaker.Registry) (req : RouteRequest) (now : Float)
    (h : r.providers.entries = []) :
    r.route reg req now = (.error (.configuration "No LLM providers configured"), r, reg, []) := by
  unfold route
  rw [Providers.list_of_entries_nil _ _ h]

/-- No strategy is named `__proto__`. -/
theorem Strategy.name_ne_prototype (s : Strategy) : s.name ≠ Json.prototypeName := by
  cases s <;> decide

/-- The counts after a request routed by a decision's own strategy, to a provider not
named `__proto__`. -/
theorem counted_count (m : RouteMetrics) {d : Decision} {s : Strategy}
    (hs : d.strategy = .known s) (hp : d.provider.name ≠ Json.prototypeName) :
    Counted m (m.count d.provider.name s) d :=
  ⟨rfl, fun n => countIn_bump _ hp n,
    fun n => by rw [hs]; exact countIn_bump _ (Strategy.name_ne_prototype s) n, rfl⟩

/-! ### The breakers a request looks at -/

/-- Looking at a provider's breaker keeps every breaker. -/
theorem keeps_circuitState (reg : Breaker.Registry) (p : Provider) (now : Float) :
    reg.Keeps (circuitState reg p now).2.1 := by
  unfold circuitState
  split
  · exact .refl reg
  · split
    · exact .refl reg
    · exact Breaker.Registry.keeps_update _ _

theorem keeps_sift (req : RouteRequest) (now : Float)
    (acc : List Provider × Router × Breaker.Registry × List Breaker.Event) (p : Provider) :
    acc.2.2.1.Keeps (sift req now acc p).2.2.1 := by
  obtain ⟨cs, r, reg, evs⟩ := acc
  have hk := keeps_circuitState reg p now
  rcases hc : circuitState reg p now with ⟨st, reg', evs'⟩
  rw [hc] at hk
  unfold sift
  dsimp only
  rw [hc]
  split_ifs <;> first | exact .refl reg | exact hk

/-- Filtering the providers keeps every breaker. -/
theorem keeps_candidates (r : Router) (reg : Breaker.Registry) (all : List Provider) (req : RouteRequest)
    (now : Float) : reg.Keeps (r.candidates reg all req now).2.2.1 := by
  unfold candidates
  suffices h : ∀ acc : List Provider × Router × Breaker.Registry × List Breaker.Event,
      acc.2.2.1.Keeps (all.foldl (sift req now) acc).2.2.1 from h ([], r, reg, [])
  induction all with
  | nil => exact fun acc => .refl _
  | cons p ps ih => exact fun acc => (keeps_sift req now acc p).trans (ih _)

/-- **Routing keeps every breaker**: a request only looks at breakers, and a look puts
back the breaker it looked at. -/
theorem keeps_route (r : Router) (reg : Breaker.Registry) (req : RouteRequest) (now : Float) :
    reg.Keeps (r.route reg req now).2.2.1 := by
  unfold route
  dsimp only
  split
  · exact .refl reg
  · exact keeps_candidates _ reg _ req now

section Choose

variable (r : Router) (first : Provider) (req : RouteRequest) {now : Float}

/-- No candidate: the first provider, counted as a fallback. -/
theorem choose_nil (setting : StrategySetting) (hnow : (Clock.clip? now).isSome = true) :
    r.choose first [] setting req now =
      (.ok ⟨first, setting, Decimal.infinity, [], noProviderReason, req.correlationId, now⟩,
        { r with metrics := { r.metrics with fallbackCount := r.metrics.fallbackCount + 1 } }) := by
  have hdate : (Clock.clip? now).isNone = false := by simpa using hnow
  simp [choose, hdate]

/-- Candidates and a known strategy: the strategy's pick, counted. -/
theorem choose_known {cs : List Provider} (s : Strategy) (hnow : (Clock.clip? now).isSome = true)
    (hcs : cs ≠ []) :
    r.choose first cs (.known s) req now =
      (.ok (r.select cs req.inputText s req.correlationId now).1,
        { (r.select cs req.inputText s req.correlationId now).2 with
          metrics := (r.select cs req.inputText s req.correlationId now).2.metrics.count
            (r.select cs req.inputText s req.correlationId now).1.provider.name s }) := by
  have hdate : (Clock.clip? now).isNone = false := by simpa using hnow
  have hne : cs.isEmpty = false := by simpa [List.isEmpty_iff] using hcs
  simp [choose, hdate, hne]

/-- Candidates and a strategy setting that names none: the request is counted in the
total, and reading the missing decision fails. -/
theorem choose_other {cs : List Provider} (g : Json) (hcs : cs ≠ []) :
    r.choose first cs (.other g) req now =
      (.error .wrongType, { r with metrics := { r.metrics with totalRequests := r.metrics.totalRequests + 1 } }) := by
  have hne : cs.isEmpty = false := by simpa [List.isEmpty_iff] using hcs
  simp [choose, hne]

end Choose

/-- The listing: windows rolled over, names as registered, and the providers in
order. -/
theorem listing {r : Router} {now : Float} {all : List Provider} {L : Providers}
    (hnames : r.providers.names.Nodup) (hlist : r.providers.list now = (all, L)) :
    L.Listed now ∧ L.names.Nodup ∧ all = L.entries.map (·.provider) := by
  have hL := Providers.listed_list r.providers now
  have hLn := Providers.names_list r.providers now
  have hall := Providers.list_fst r.providers now
  rw [hlist] at hL hLn hall
  exact ⟨hL, hLn ▸ hnames, hall⟩

/-- With providers registered, a request is a choice among the providers, as listed,
that `admits` lets through; the breakers move only as looks move them. -/
theorem route_of_list {r : Router} {reg : Breaker.Registry} (req : RouteRequest) {now : Float}
    {first : Provider} {rest : List Provider} {L : Providers}
    (hnames : r.providers.names.Nodup) (hkeyed : reg.Keyed)
    (hlist : r.providers.list now = (first :: rest, L)) :
    ∃ reg' evs, r.route reg req now =
      let c := ({ r with providers := L } : Router).choose first
        ((first :: rest).filter (admits reg req now)) ((req.strategy.map .known).getD r.defaultStrategy)
        req now
      (c.1, c.2, reg', evs) := by
  obtain ⟨hL, hLn, hall⟩ := listing hnames hlist
  obtain ⟨hc, hr, -, -⟩ := candidates_eq (r := { r with providers := L }) req hL hLn hkeyed
  rw [← hall] at hc hr
  rcases hC : ({ r with providers := L } : Router).candidates reg (first :: rest) req now with
    ⟨cs, r', reg', evs⟩
  rw [hC] at hc hr
  dsimp only at hc hr
  subst hc hr
  refine ⟨reg', evs, ?_⟩
  unfold route
  rw [hlist]
  dsimp only
  rw [hC]
  cases req.strategy <;> rfl


/-- The contract of a request, for a router whose providers have distinct names,
whose breakers' names match only themselves and whose own strategy names one, at a
time that is a date:

* it is refused as misconfigured exactly when no provider is registered, and then
  nothing changes;
* when providers are registered but none is a candidate, the first provider (as
  listed) is returned with an infinite score, no alternatives and the fallback
  reason, and of the counts only the fallbacks grow, by one;
* otherwise the decision, made by the strategy set, picks among the candidates
  (`Picks`) and is counted under its provider and strategy (`Counted`). -/
theorem route_contract (r : Router) (reg : Breaker.Registry) (req : RouteRequest) (now : Float)
    (hnow : (Clock.clip? now).isSome = true) (hset : ∀ g, r.defaultStrategy ≠ .other g)
    (hnames : r.providers.names.Nodup) (hplain : ∀ n ∈ r.providers.names, Json.inheritedNames.contains n = false)
    (hkeyed : reg.Keyed) :
    let all := (r.providers.list now).1
    let cs := all.filter (admits reg req now)
    let setting := (req.strategy.map .known).getD r.defaultStrategy
    ((∃ msg, (r.route reg req now).1 = .error (.configuration msg)) ↔ all = []) ∧
    (all = [] → (r.route reg req now).2 = (r, reg, [])) ∧
    (∀ first rest, all = first :: rest → cs = [] →
      (r.route reg req now).1 =
          .ok ⟨first, setting, Decimal.infinity, [], noProviderReason, req.correlationId, now⟩ ∧
        (r.route reg req now).2.1.metrics =
          { r.metrics with fallbackCount := r.metrics.fallbackCount + 1 }) ∧
    (cs ≠ [] → ∃ d, (r.route reg req now).1 = .ok d ∧ d.strategy = setting ∧ Picks cs d ∧
      Counted r.metrics (r.route reg req now).2.1.metrics d) := by
  intro all cs setting
  obtain ⟨s, hs⟩ : ∃ s, setting = .known s := by
    cases hq : req.strategy with
    | some s => exact ⟨s, by simp [setting, hq]⟩
    | none =>
      cases hd : r.defaultStrategy with
      | known s => exact ⟨s, by simp [setting, hq, hd]⟩
      | other g => exact absurd hd (hset g)
  rcases hlist : r.providers.list now with ⟨_ | ⟨first, rest⟩, L⟩
  · -- no provider: refused, and nothing changes
    have hall : all = [] := by simp [all, hlist]
    have hout := route_of_entries_nil reg req now ((Providers.list_fst_eq_nil _ _).1 hall)
    refine ⟨⟨fun _ => hall, fun _ => ⟨_, by rw [hout]⟩⟩, fun _ => by rw [hout], ?_, ?_⟩
    · intro first rest h
      simp [hall] at h
    · intro hcs
      exact absurd (by simp [cs, hall]) hcs
  · have hall : all = first :: rest := by simp [all, hlist]
    obtain ⟨reg', evs, hout⟩ := route_of_list req hnames hkeyed hlist
    rw [← hall, show all.filter (admits reg req now) = cs from rfl,
      show (req.strategy.map .known).getD r.defaultStrategy = setting from rfl] at hout
    have hok : ∀ d, (r.route reg req now).1 = .ok d →
        ((∃ msg, (r.route reg req now).1 = .error (.configuration msg)) ↔ all = []) := by
      intro d hd
      rw [hd, hall]
      simp
    have hsome : all ≠ [] := by simp [hall]
    by_cases hcs : cs = []
    · -- no candidate: the fallback
      rw [hcs, choose_nil { r with providers := L } first req setting hnow] at hout
      have h1 : (r.route reg req now).1 =
          .ok ⟨first, setting, Decimal.infinity, [], noProviderReason, req.correlationId, now⟩ := by
        rw [hout]
      have h2 : (r.route reg req now).2.1.metrics =
          { r.metrics with fallbackCount := r.metrics.fallbackCount + 1 } := by
        rw [hout]
      refine ⟨hok _ h1, fun h => absurd h hsome, ?_, fun h => absurd hcs h⟩
      intro first' rest' h _
      rw [hall] at h
      injection h with hfirst hrest
      subst hfirst
      exact ⟨h1, h2⟩
    · -- candidates: the strategy's pick
      obtain ⟨-, hLn, hall'⟩ := listing hnames hlist
      have hLnames : L.names = all.map (·.name) := by
        rw [Providers.names]
        simp [hall, hall', Function.comp_def]
      have hn : (cs.map (·.name)).Nodup := by
        refine hLn.sublist ?_
        rw [hLnames]
        exact (List.filter_sublist).map _
      -- a candidate's name is registered, so no ordinary object inherits it
      have hproto : ∀ p ∈ cs, p.name ≠ Json.prototypeName := by
        intro p hp hname
        have hreg : p.name ∈ r.providers.names := by
          rw [← Providers.names_list r.providers now, hlist, hLnames]
          exact List.mem_map_of_mem (List.mem_of_mem_filter hp)
        have hinh := hplain _ hreg
        rw [hname] at hinh
        exact absurd hinh (by decide)
      set sel := ({ r with providers := L } : Router).select cs req.inputText s req.correlationId now
        with hsel
      obtain ⟨hpick, hstrat, hmetrics⟩ :
          Picks cs sel.1 ∧ sel.1.strategy = .known s ∧ sel.2.metrics = r.metrics :=
        select_picks { r with providers := L } hcs hn req.inputText s req.correlationId now
      rw [hs, choose_known { r with providers := L } first req s hnow hcs] at hout
      have h1 : (r.route reg req now).1 = .ok sel.1 := by rw [hout]
      have h2 : (r.route reg req now).2.1.metrics = sel.2.metrics.count sel.1.provider.name s := by
        rw [hout]
      refine ⟨hok _ h1, fun h => absurd h hsome, fun _ _ _ h => absurd h hcs, fun _ => ?_⟩
      refine ⟨sel.1, h1, hstrat.trans hs.symm, hpick, ?_⟩
      rw [h2, hmetrics]
      exact counted_count r.metrics hstrat (hproto _ hpick.chosen)

/-- Two providers of distinct names and no breakers, routing by the balanced default. -/
def twoProviders : Router :=
  let provider (name : String) (latency : Float) : Provider :=
    ⟨name, .openai, none, 1, 1, 0.01, latency, .num 1000, [], .bool true, 60, .num 0, .null, .num 1, .null⟩
  { providers := ⟨[⟨provider "fast" 100, 1773144000000⟩, ⟨provider "slow" 900, 1773144000000⟩]⟩
    ledger := Ledger.create {} [] 1773144000000 }

/-- The contract holds of a request that names no strategy, routed among two providers
a minute and a half after their windows started. -/
theorem route_contract_two_providers :
    let r := twoProviders
    let reg : Breaker.Registry := {}
    let req : RouteRequest := { inputText := "hello" }
    let now : Float := 1773144090000
    ((Clock.clip? now).isSome = true ∧ (∀ g, r.defaultStrategy ≠ .other g) ∧
      r.providers.names.Nodup ∧ (∀ n ∈ r.providers.names, Json.inheritedNames.contains n = false) ∧
      reg.Keyed) ∧
    let all := (r.providers.list now).1
    let cs := all.filter (admits reg req now)
    let setting := (req.strategy.map .known).getD r.defaultStrategy
    ((∃ msg, (r.route reg req now).1 = .error (.configuration msg)) ↔ all = []) ∧
    (all = [] → (r.route reg req now).2 = (r, reg, [])) ∧
    (∀ first rest, all = first :: rest → cs = [] →
      (r.route reg req now).1 =
          .ok ⟨first, setting, Decimal.infinity, [], noProviderReason, req.correlationId, now⟩ ∧
        (r.route reg req now).2.1.metrics =
          { r.metrics with fallbackCount := r.metrics.fallbackCount + 1 }) ∧
    (cs ≠ [] → ∃ d, (r.route reg req now).1 = .ok d ∧ d.strategy = setting ∧ Picks cs d ∧
      Counted r.metrics (r.route reg req now).2.1.metrics d) :=
  have hnow : (Clock.clip? (1773144090000 : Float)).isSome = true := by decide
  have hset : ∀ g, twoProviders.defaultStrategy ≠ .other g := fun _ h => by cases h
  have hnames : twoProviders.providers.names.Nodup := by decide
  have hplain : ∀ n ∈ twoProviders.providers.names, Json.inheritedNames.contains n = false := by decide
  have hkeyed : ({} : Breaker.Registry).Keyed := fun _ hx => absurd hx List.not_mem_nil
  ⟨⟨hnow, hset, hnames, hplain, hkeyed⟩,
    route_contract twoProviders {} { inputText := "hello" } 1773144090000 hnow hset hnames hplain hkeyed⟩

/-- One provider, named `__proto__`, routing by the balanced default. -/
def prototypeNamed : Router :=
  { providers := ⟨[⟨⟨"__proto__", .openai, none, 1, 1, 0.01, 100, .num 1000, [], .bool true, 60, .num 0,
      .null, .num 1, .null⟩, 1773144000000⟩]⟩
    ledger := Ledger.create {} [] 1773144000000 }

/-- **A request routed to `__proto__` is not counted by provider.** The one provider,
named `__proto__`, is a candidate and is chosen; the request is counted in the total
and under its strategy, and the counts by provider stay empty. -/
theorem route_to_prototype_uncounted :
    ∃ d, (prototypeNamed.route {} { inputText := "hello" } 1773144090000).1 = .ok d ∧
      d.provider.name = "__proto__" ∧
      (prototypeNamed.route {} { inputText := "hello" } 1773144090000).2.1.metrics =
        { totalRequests := 1, requestsByStrategy := [("balanced", 1)] } := by
  have hnow : (Clock.clip? (1773144090000 : Float)).isSome = true := by decide
  have hnames : prototypeNamed.providers.names.Nodup := by decide
  have hkeyed : ({} : Breaker.Registry).Keyed := fun _ hx => absurd hx List.not_mem_nil
  have hcands : ((prototypeNamed.providers.list 1773144090000).1.filter
      (admits {} { inputText := "hello" } 1773144090000)).map (·.name) = ["__proto__"] := by decide
  rcases hlist : prototypeNamed.providers.list 1773144090000 with ⟨_ | ⟨first, rest⟩, L⟩
  · rw [hlist] at hcands
    cases hcands
  obtain ⟨reg', evs, hout⟩ := route_of_list { inputText := "hello" } hnames hkeyed hlist
  rw [hlist] at hcands
  obtain ⟨c, hcs, hc⟩ : ∃ c, (first :: rest).filter (admits {} { inputText := "hello" } 1773144090000) = [c] ∧
      c.name = "__proto__" := by
    rcases hf : (first :: rest).filter (admits {} { inputText := "hello" } 1773144090000) with _ | ⟨c, _ | ⟨c', cs⟩⟩
    all_goals rw [hf] at hcands
    · cases hcands
    · exact ⟨c, rfl, by simpa using hcands⟩
    · simp at hcands
  rw [hcs] at hout
  set sel := ({ prototypeNamed with providers := L } : Router).select [c] "hello" .balanced none 1773144090000
  obtain ⟨hpick, -, hmetrics⟩ := select_picks { prototypeNamed with providers := L } (List.cons_ne_nil c [])
    (by simp) "hello" .balanced none 1773144090000
  have hchosen : sel.1.provider = c := List.mem_singleton.1 hpick.chosen
  rw [show (({ inputText := "hello" } : RouteRequest).strategy.map StrategySetting.known).getD
      prototypeNamed.defaultStrategy = .known .balanced from rfl,
    choose_known { prototypeNamed with providers := L } first _ .balanced hnow (List.cons_ne_nil c [])] at hout
  refine ⟨sel.1, by rw [hout], by rw [hchosen, hc], ?_⟩
  rw [hout]
  show sel.2.metrics.count sel.1.provider.name .balanced = _
  rw [hmetrics, hchosen, hc]
  rfl

end Router

end LaneGate
