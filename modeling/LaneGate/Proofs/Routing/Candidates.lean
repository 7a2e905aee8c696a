import LaneGate.Routing.Router
import LaneGate.Proofs.Breaker.Steps
import Mathlib.Data.List.Nodup
/-!
# Which providers may take a request

The router's candidates for a request are its providers, in registration order,
that pass five filters: the request does not exclude them, they are enabled, they
offer every capability asked for, the breaker they name (if it exists) is not open
once looked at now, and they are available now (enabled and below their rate limit,
counted in a window that starts again after a minute). `Router.admits` says this of
one provider, as the listing shows it.

Three of the filters read state that the filtering itself changes: listing the
providers rolls over every window that has run out, the availability check looks the
provider up again and rolls its window once more, and a look at a breaker may move
it from open to half-open and store it back. None of that changes an answer:

* `Registered.roll_roll` — a window rolled over now does not roll over again now, as
  no time is a whole window after itself (`not_window_after_self`: `now - now` is
  zero, or not a number);
* `Providers.isAvailable_of_listed` — on the registry as listed now, with distinct
  names, the availability check of a listed provider reads it as it is and leaves
  the registry alone;
* `Breaker.Registry.looked_update` — storing a breaker back after a look leaves what
  any later look finds unchanged, when breakers whose names match are one breaker.

So `Router.candidates_eq`: the candidates are the listed providers that `admits`
lets through, the router is left as it was, and the breakers only moved as a look
moves them.
-/

namespace LaneGate

/-! ### Rate windows -/

section Windows

open Float.Model

/-- A value less itself is zero, or not a number (for an infinity or not a number). -/
theorem unpacked_sub_self (spec : Format) (u : UnpackedFloat) :
    UnpackedFloat.sub spec u u = .zero .positive ∨ UnpackedFloat.sub spec u u = .notANumber := by
  -- no sign is its own opposite, so two infinities or two zeros of one sign cancel
  have hs : ∀ s : UnpackedFloat.Sign, (s == -s) = false := by
    intro s
    cases s <;> rfl
  cases u with
  | infinity s =>
    right
    show (if s == -s then UnpackedFloat.infinity s else .notANumber) = _
    rw [hs]
    rfl
  | notANumber => exact .inr rfl
  | zero s =>
    left
    show (if s == -s then UnpackedFloat.zero s else .zero .positive) = _
    rw [hs]
    rfl
  | finite s m e h =>
    left
    show UnpackedFloat.normalize spec
      (s.apply (UnpackedFloat.decreaseExponent m e (min e e)).1 -
        s.apply (UnpackedFloat.decreaseExponent m e (min e e)).1) (min e e) .positive = _
    rw [Int.sub_self]
    rfl

/-- No time is a whole window after itself. -/
theorem not_window_after_self (now : Float) : ¬ (now - now ≥ rateWindowMs) := by
  show ¬ decide (rateWindowMs.toModel ≤
    pack (UnpackedFloat.sub .binary64 now.toModel.unpack now.toModel.unpack)) = true
  rcases unpacked_sub_self .binary64 now.toModel.unpack with h | h <;> rw [h] <;> decide

end Windows

namespace Registered

@[simp] theorem roll_name (e : Registered) (now : Float) :
    (e.roll now).provider.name = e.provider.name := by
  unfold roll
  split <;> rfl

/-- A window rolled over now stays as it is at a second look now. -/
@[simp] theorem roll_roll (e : Registered) (now : Float) : (e.roll now).roll now = e.roll now := by
  unfold roll
  split
  · simp [not_window_after_self]
  · -- the second look reads the same window as the first
    simp [*]

end Registered

/-! ### The provider registry, as listed -/

namespace Providers

/-- The names of the providers, in registration order. -/
def names (ps : Providers) : List String := ps.entries.map (·.provider.name)

/-- Every window of the registry has been rolled over now, as listing leaves it. -/
def Listed (ps : Providers) (now : Float) : Prop := ∀ e ∈ ps.entries, e.roll now = e

variable (ps : Providers) (now : Float)

theorem list_fst : (ps.list now).1 = (ps.list now).2.entries.map (·.provider) := rfl

theorem listed_list : (ps.list now).2.Listed now := by
  intro e he
  obtain ⟨e₀, -, rfl⟩ := List.mem_map.1 he
  exact Registered.roll_roll e₀ now

@[simp] theorem names_list : (ps.list now).2.names = ps.names := by
  simp [list, names, Function.comp_def]

theorem list_fst_eq_nil : (ps.list now).1 = [] ↔ ps.entries = [] := by
  simp [list]

theorem list_of_entries_nil (h : ps.entries = []) : ps.list now = ([], ps) := by
  cases ps
  simp_all [list]

variable {ps}

/-- With distinct names, a provider's name finds its own entry. -/
theorem find?_name (hn : ps.names.Nodup) {e : Registered} (he : e ∈ ps.entries) :
    ps.entries.find? (·.provider.name == e.provider.name) = some e := by
  cases h : ps.entries.find? (·.provider.name == e.provider.name) with
  | none => simpa using List.find?_eq_none.1 h e he
  | some x =>
    have hname : x.provider.name = e.provider.name := by simpa using List.find?_some h
    rw [List.inj_on_of_nodup_map hn (List.mem_of_find?_eq_some h) he hname]

/-- On the registry as listed now, with distinct names, the availability check of a
listed provider reads that provider and leaves the registry as it is. -/
theorem isAvailable_of_listed (hl : ps.Listed now) (hn : ps.names.Nodup) {p : Provider}
    (hp : p ∈ ps.entries.map (·.provider)) : ps.isAvailable p now = (p.available, ps) := by
  obtain ⟨⟨q, w⟩, he, rfl⟩ := List.mem_map.1 hp
  have hback : ps.entries.map (fun x => if x.provider.name = q.name then ⟨q, w⟩ else x) =
      ps.entries := by
    conv => rhs; rw [← List.map_id ps.entries]
    refine List.map_congr_left fun x hx => ?_
    split
    · next h => exact (List.inj_on_of_nodup_map hn hx he h).symm
    · rfl
  simp [isAvailable, get, modify, find?_name hn he, hl _ he, hback]

end Providers

/-! ### The breaker registry, as looked at -/

namespace Breaker.Registry

/-- Breakers whose names match are one breaker. -/
def Keyed (reg : Registry) : Prop :=
  ∀ x ∈ reg.breakers, ∀ y ∈ reg.breakers, (x.key == y.key) = true → x = y

/-- The breakers as a look now finds them. -/
def looked (reg : Registry) (now : Float) : List Breaker :=
  reg.breakers.map fun b => (b.settle now).1

variable {reg : Registry} {now : Float}

/-- A look keeps every name, so the breaker a name finds after a look is the one it
found before, looked at. -/
theorem find?_looked (k : Key) :
    (reg.looked now).find? (·.key == k) = (reg.find? k).map fun b => (b.settle now).1 := by
  simp [looked, find?, List.find?_map, Function.comp_def, Breaker.key]

/-- Storing a breaker back after a look, when breakers whose names match are one
breaker: the breaker replaces itself only, so every later look finds what it would
have found before. -/
theorem looked_update (hk : reg.Keyed) {b : Breaker} (hb : b ∈ reg.breakers) :
    (reg.update (b.settle now).1).Keyed ∧ (reg.update (b.settle now).1).looked now = reg.looked now := by
  let f := fun x : Breaker => if x.key == (b.settle now).1.key then (b.settle now).1 else x
  have hf : ∀ x ∈ reg.breakers, (f x).key = x.key ∧ ((f x).settle now).1 = (x.settle now).1 := by
    intro x hx
    by_cases h : (x.key == (b.settle now).1.key) = true
    · have hxb : x = b := hk x hx b hb (by simpa [Breaker.key] using h)
      subst hxb
      have hself : (x.config.key == x.config.key) = true := by simpa [Breaker.key] using h
      simp [f, hself, Breaker.key]
    · simp [f, h]
  have hup : (reg.update (b.settle now).1).breakers = reg.breakers.map f := rfl
  refine ⟨?_, ?_⟩
  · intro x' hx' y' hy' hxy
    obtain ⟨x, hx, rfl⟩ := List.mem_map.1 (hup ▸ hx')
    obtain ⟨y, hy, rfl⟩ := List.mem_map.1 (hup ▸ hy')
    rw [(hf x hx).1, (hf y hy).1] at hxy
    rw [hk x hx y hy hxy]
  · simp only [looked, hup, List.map_map]
    exact List.map_congr_left fun x hx => (hf x hx).2

end Breaker.Registry

/-! ### The filters -/

namespace Router

variable {reg reg₀ : Breaker.Registry} {now : Float} {p : Provider}

/-- The router reads a provider's breaker as a look now finds it: its state, if the
provider names (by a value that counts as true) a breaker that exists. -/
theorem circuitState_fst (reg : Breaker.Registry) (p : Provider) (now : Float) :
    (circuitState reg p now).1 =
      if p.circuitBreakerName.truthy then
        ((reg.looked now).find? (·.key == ⟨some p.circuitBreakerName⟩)).map (·.state)
      else none := by
  rw [Breaker.Registry.find?_looked]
  unfold circuitState
  split
  · next h => simp_all
  · next h =>
    simp only [Bool.not_eq_true', Bool.not_eq_false] at h
    split <;> simp_all

/-- A look at a provider's breaker keeps the registry keyed and what looks find. -/
theorem circuitState_snd (hk : reg.Keyed) (p : Provider) (now : Float) :
    (circuitState reg p now).2.1.Keyed ∧ (circuitState reg p now).2.1.looked now = reg.looked now := by
  unfold circuitState
  split
  · exact ⟨hk, rfl⟩
  · split
    · exact ⟨hk, rfl⟩
    · next b hb => exact Breaker.Registry.looked_update hk (List.mem_of_find?_eq_some hb)

/-- Whether the router lets a provider, as listed now, take a request: the request
does not exclude it, it is enabled, it offers every capability asked for, the breaker
it names is not open once looked at now, and it is available now. -/
def admits (reg : Breaker.Registry) (req : RouteRequest) (now : Float) (p : Provider) : Bool :=
  !req.excludedProviders.contains p.name && p.enabled.truthy &&
    req.requiredCapabilities.all p.can && (circuitState reg p now).1 != some .opened &&
    p.available

variable {r : Router}

/-- One provider through the filters: it joins the candidates exactly when `admits`
lets it through on the registry the filtering started from, the router stays as it
is, and the breakers still look as they did. -/
theorem sift_eq (req : RouteRequest) (hl : r.providers.Listed now) (hn : r.providers.names.Nodup)
    (hk : reg.Keyed) (hlook : reg.looked now = reg₀.looked now)
    (hp : p ∈ r.providers.entries.map (·.provider)) (cs : List Provider)
    (evs : List Breaker.Event) :
    ∃ reg' evs', sift req now (cs, r, reg, evs) p =
        (if admits reg₀ req now p then cs ++ [p] else cs, r, reg', evs') ∧
      reg'.Keyed ∧ reg'.looked now = reg₀.looked now := by
  have hst : (circuitState reg p now).1 = (circuitState reg₀ p now).1 := by
    rw [circuitState_fst, circuitState_fst, hlook]
  obtain ⟨hk', hlook'⟩ := circuitState_snd hk p now
  have hstop : admits reg₀ req now p = false →
      ∃ reg' evs', (cs, r, reg, evs) = (if admits reg₀ req now p then cs ++ [p] else cs, r, reg', evs') ∧
        reg'.Keyed ∧ reg'.looked now = reg₀.looked now :=
    fun ha => ⟨reg, evs, by simp [ha], hk, hlook⟩
  dsimp only [sift]
  split
  · next h => exact hstop (by simp only [admits, h, Bool.not_true, Bool.false_and])
  split
  · next h =>
    rw [Bool.not_eq_true'] at h
    exact hstop (by simp only [admits, h, Bool.and_false, Bool.false_and])
  split
  · next h =>
    rw [Bool.not_eq_true'] at h
    exact hstop (by simp only [admits, h, Bool.and_false, Bool.false_and])
  next hx hen hcap =>
  rcases hc : circuitState reg p now with ⟨st, reg', evs'⟩
  rw [hc] at hst hk' hlook'
  refine ⟨reg', evs ++ evs', ?_, hk', hlook'.trans hlook⟩
  simp only [Bool.not_eq_true', Bool.not_eq_false] at hx hen hcap
  split
  · next ho => simp_all [admits]
  · next ho =>
    simp only [Providers.isAvailable_of_listed now hl hn hp]
    simp_all [admits]

/-- The filters over listed providers, from any start: the ones `admits` lets through
join the candidates in order. -/
theorem foldl_sift (reg₀ : Breaker.Registry) (req : RouteRequest) (hl : r.providers.Listed now)
    (hn : r.providers.names.Nodup) :
    ∀ (ps : List Provider) (cs : List Provider) (reg : Breaker.Registry) (evs : List Breaker.Event),
      (∀ p ∈ ps, p ∈ r.providers.entries.map (·.provider)) → reg.Keyed →
      reg.looked now = reg₀.looked now →
      (ps.foldl (sift req now) (cs, r, reg, evs)).1 = cs ++ ps.filter (admits reg₀ req now) ∧
        (ps.foldl (sift req now) (cs, r, reg, evs)).2.1 = r ∧
        (ps.foldl (sift req now) (cs, r, reg, evs)).2.2.1.Keyed ∧
        (ps.foldl (sift req now) (cs, r, reg, evs)).2.2.1.looked now = reg₀.looked now
  | [], cs, reg, _, _, hk, hlook => ⟨by simp, rfl, hk, hlook⟩
  | p :: ps, cs, reg, evs, hps, hk, hlook => by
    obtain ⟨reg', evs', hstep, hk', hlook'⟩ :=
      sift_eq req hl hn hk hlook (hps p List.mem_cons_self) cs evs
    rw [List.foldl_cons, hstep]
    obtain ⟨hcs, hr, hk'', hlook''⟩ :=
      foldl_sift reg₀ req hl hn ps _ reg' evs' (fun q hq => hps q (List.mem_cons_of_mem p hq)) hk' hlook'
    refine ⟨?_, hr, hk'', hlook''⟩
    rw [hcs, List.filter_cons]
    split <;> simp_all

/-- The candidates of a request among the providers as listed now, with distinct
names and a keyed breaker registry: the providers that `admits` lets through, in
order; the router is left as it was, and the breakers only moved as a look moves
them. -/
theorem candidates_eq (req : RouteRequest) (hl : r.providers.Listed now) (hn : r.providers.names.Nodup)
    (hk : reg.Keyed) :
    (r.candidates reg (r.providers.entries.map (·.provider)) req now).1 =
        (r.providers.entries.map (·.provider)).filter (admits reg req now) ∧
      (r.candidates reg (r.providers.entries.map (·.provider)) req now).2.1 = r ∧
      (r.candidates reg (r.providers.entries.map (·.provider)) req now).2.2.1.Keyed ∧
      (r.candidates reg (r.providers.entries.map (·.provider)) req now).2.2.1.looked now =
        reg.looked now := by
  unfold candidates
  simpa using foldl_sift reg req hl hn _ [] reg [] (fun _ hp => hp) hk rfl

end Router

end LaneGate
