import LaneGate.Proofs.Decimal.Whole
import LaneGate.Proofs.Routing.Route
/-!
# Taking turns

The balancer's round-robin cursor is a double. A turn moves it one on, takes the
remainder after dividing by the number of candidates, and picks the candidate at
the cursor. While the cursor holds a whole number (`Decimal.Whole`) all of this is
integer arithmetic:

* `Balancer.nextInTurn_whole`: from a cursor holding `c`, a turn among `n`
  candidates picks position `(c + 1) % n` and leaves the cursor holding it; with no
  candidate nothing is picked and nothing changes (`Balancer.nextInTurn_zero`);
* `Balancer.inTurns_whole`: `k` turns in a row pick `(c + 1 + i) % n` for `i < k`,
  and `n` such positions are every position once (`map_range_mod_perm`);
* `Router.route_in_turn`: a request routed in turn takes the balancer's turn among
  the candidates it finds, with score 0 and the first three other candidates as
  alternatives;
* `Router.RoutedInTurn.picks`: requests routed in turn one after another, finding
  the same candidates each time, pick them cyclically from the cursor on, so `m · k`
  of them over `k` candidates pick the candidates `m` times over
  (`map_range_mul_perm`).

The cursor is not reset between lists of different lengths, so it may start at any
whole number; it only has to stay exact when moved one on (`c + 1 < 2^53`).
-/

namespace LaneGate

open Decimal

/-! ### Cycling through a list -/

section Cycle

variable {α : Type}

/-- Reading a list cyclically from position `s` on is rotating it. -/
theorem map_range_getD_rotate (l : List α) (s : Nat) (d : α) :
    (List.range l.length).map (fun i => l.getD ((s + i) % l.length) d) = l.rotate (s % l.length) := by
  apply List.ext_getElem
  · simp
  · intro i h₁ h₂
    simp only [List.getElem_map, List.getElem_range, List.getElem_rotate]
    rw [List.length_map, List.length_range] at h₁
    rw [List.getD_eq_getElem _ _ (Nat.mod_lt _ (by omega))]
    congr 1
    rw [Nat.add_comm s i, Nat.add_mod_mod]

/-- `n` consecutive positions modulo `n`, from anywhere, are every position once. -/
theorem map_range_mod_perm (s n : Nat) : ((List.range n).map fun i => (s + i) % n).Perm (List.range n) := by
  have h := map_range_getD_rotate (List.range n) s 0
  rw [List.length_range] at h
  have hget : ∀ i ∈ List.range n, (List.range n).getD ((s + i) % n) 0 = (s + i) % n := by
    intro i hi
    have hn : 0 < n := by
      rw [List.mem_range] at hi
      omega
    rw [List.getD_eq_getElem _ _ (by rw [List.length_range]; exact Nat.mod_lt _ hn),
      List.getElem_range]
  rw [← List.map_congr_left hget, h]
  exact List.rotate_perm _ _

/-- Reading a list cyclically for `m` rounds, from anywhere, reads it `m` times over. -/
theorem map_range_mul_perm (l : List α) (s m : Nat) (d : α) :
    ((List.range (m * l.length)).map fun i => l.getD ((s + i) % l.length) d).Perm
      (List.replicate m l).flatten := by
  induction m with
  | zero => simp
  | succ m ih =>
    -- the last round starts at a multiple of the length: a rotation of the list
    have hround : (List.range l.length).map (fun i => l.getD ((s + (m * l.length + i)) % l.length) d) =
        l.rotate (s % l.length) := by
      rw [← map_range_getD_rotate]
      apply List.map_congr_left
      intro i _
      rw [show s + (m * l.length + i) = s + i + l.length * m by ring, Nat.add_mul_mod_self_left]
    rw [Nat.succ_mul, List.range_add, List.map_append, List.map_map, List.replicate_succ',
      List.flatten_append, List.flatten_singleton]
    refine ih.append ?_
    rw [Function.comp_def, hround]
    exact List.rotate_perm _ _

/-- Reading on after one step from `(c + 1) % n` is reading from `c + 1` one step
later. -/
theorem mod_succ_add (c i n : Nat) : ((c + 1) % n + 1 + i) % n = (c + 1 + (i + 1)) % n := by
  rw [Nat.add_assoc, Nat.mod_add_mod, Nat.add_comm 1 i]

end Cycle

/-! ### Positions -/

/-- A double holding a whole number below the number of items is the position of an
item. -/
theorem positionBelow_whole {n j : Nat} {x : Float} (hx : Whole x j) (hj : j < n)
    (hn : n < 2 ^ 53) : positionBelow n x = some j := by
  have hrem := hx.remainder (b := 1) Whole.one (by decide)
  rw [Nat.mod_one] at hrem
  have h0 : (0 : Float) ≤ x := (Whole.zero.le_iff hx).2 (by omega)
  have hlt : x < n.toFloat := (hx.lt_iff (Whole.toFloat hn)).2 (by exact_mod_cast hj)
  have hbeq : (Decimal.remainder x 1 == 0) = true := (hrem.beq_iff Whole.zero).2 rfl
  unfold positionBelow
  rw [if_pos (by simp [h0, hlt, hbeq]), hx.toUInt64]

namespace Balancer

variable {κ : Type}

/-- With no candidate there is no turn: nothing is picked and the cursor stays. -/
theorem nextInTurn_zero (b : Balancer κ) : b.nextInTurn 0 = (none, b) := rfl

/-- A turn among `n` candidates (`n` not zero): the cursor moved one on, modulo `n`,
and the position it names, if any. -/
theorem nextInTurn_of_ne_zero (b : Balancer κ) {n : Nat} (hn : 0 < n) (hn' : n < 2 ^ 53) :
    b.nextInTurn n =
      (positionBelow n (Decimal.remainder (b.cursor + 1) n.toFloat),
        { b with cursor := Decimal.remainder (b.cursor + 1) n.toFloat }) := by
  have hzero : Primitive.isZeroCount (.num n.toFloat) = false := by
    cases h : Primitive.isZeroCount (.num n.toFloat)
    · rfl
    · have := ((Whole.toFloat hn').beq_iff Whole.zero).1 h
      omega
  simp only [nextInTurn, roundRobin, hzero, Bool.false_eq_true, if_false, Primitive.toNumber,
    Option.bind_some]

/-- A turn among `n` candidates from a cursor holding `c`: position `(c + 1) % n`, and
the cursor holds it afterwards; nothing else changes. -/
theorem nextInTurn_whole {b : Balancer κ} {c n : Nat} (hc : Whole b.cursor c) (hc' : c + 1 < 2 ^ 53)
    (hn : 0 < n) (hn' : n < 2 ^ 53) :
    (b.nextInTurn n).1 = some ((c + 1) % n) ∧ Whole (b.nextInTurn n).2.cursor ((c + 1) % n : Nat) ∧
      (b.nextInTurn n).2 = { b with cursor := (b.nextInTurn n).2.cursor } := by
  have hsum : Whole (b.cursor + 1) ((c + 1 : Nat) : Int) := by
    have h := hc.add (b := 1) Whole.one (by omega)
    rwa [← Nat.cast_one, ← Nat.cast_add] at h
  have hrem := hsum.remainder (Whole.toFloat hn') hn
  rw [nextInTurn_of_ne_zero b hn hn']
  exact ⟨positionBelow_whole hrem (Nat.mod_lt _ hn) hn', hrem, rfl⟩

/-- `k` turns in a row among `n` candidates: the positions picked, in order, and the
balancer after them. -/
def inTurns (b : Balancer κ) (n : Nat) : Nat → List (Option Nat) × Balancer κ
  | 0 => ([], b)
  | k + 1 => ((b.nextInTurn n).1 :: ((b.nextInTurn n).2.inTurns n k).1, ((b.nextInTurn n).2.inTurns n k).2)

/-- `k` turns in a row among `n` candidates from a cursor holding `c` pick the
positions `(c + 1 + i) % n`, `i < k`. -/
theorem inTurns_whole {n : Nat} (hn : 0 < n) (hn' : n < 2 ^ 53) :
    ∀ (k : Nat) (b : Balancer κ) (c : Nat), Whole b.cursor c → c + 1 < 2 ^ 53 →
      (b.inTurns n k).1 = (List.range k).map fun i => some ((c + 1 + i) % n)
  | 0, _, _, _, _ => rfl
  | k + 1, b, c, hc, hc' => by
    obtain ⟨hpick, hnext, -⟩ := nextInTurn_whole hc hc' hn hn'
    have hrest := inTurns_whole hn hn' k _ _ hnext (by have := Nat.mod_lt (c + 1) hn; omega)
    simp only [inTurns, hpick, hrest, List.range_succ_eq_map, List.map_cons, List.map_map,
      Nat.add_zero]
    congr 1
    apply List.map_congr_left
    intro i _
    simp only [Function.comp_apply, mod_succ_add]

end Balancer

/-! ### Routing in turn -/

namespace Router

/-- One provider through the filters leaves the balancer alone. -/
theorem sift_balancer (req : RouteRequest) (now : Float)
    (acc : List Provider × Router × Breaker.Registry × List Breaker.Event) (p : Provider) :
    (sift req now acc p).2.1.balancer = acc.2.1.balancer := by
  obtain ⟨cs, r, reg, evs⟩ := acc
  simp only [sift]
  split
  · rfl
  split
  · rfl
  split
  · rfl
  split <;> rfl

/-- Finding the candidates leaves the balancer alone. -/
theorem candidates_balancer (r : Router) (reg : Breaker.Registry) (all : List Provider)
    (req : RouteRequest) (now : Float) : (r.candidates reg all req now).2.1.balancer = r.balancer := by
  unfold candidates
  suffices h : ∀ (ps : List Provider) (acc : List Provider × Router × Breaker.Registry × List Breaker.Event),
      (ps.foldl (sift req now) acc).2.1.balancer = acc.2.1.balancer from h all _
  intro ps
  induction ps with
  | nil => intro acc; rfl
  | cons p ps ih => intro acc; rw [List.foldl_cons, ih, sift_balancer]

/-- The candidates a request finds: the providers, as listed now, through the
filters. -/
def found (r : Router) (reg : Breaker.Registry) (req : RouteRequest) (now : Float) : List Provider :=
  (({ r with providers := (r.providers.list now).2 } : Router).candidates reg
    (r.providers.list now).1 req now).1

/-- A request that finds candidates is a choice among them, made by a router whose
balancer is the one the request started with. -/
theorem route_of_found {r : Router} {reg : Breaker.Registry} {req : RouteRequest} {now : Float}
    (hne : r.found reg req now ≠ []) :
    ∃ (first : Provider) (r₁ : Router) (reg' : Breaker.Registry) (evs : List Breaker.Event),
      r₁.balancer = r.balancer ∧
      r.route reg req now =
        ((r₁.choose first (r.found reg req now) ((req.strategy.map .known).getD r.defaultStrategy)
            req now).1,
          (r₁.choose first (r.found reg req now) ((req.strategy.map .known).getD r.defaultStrategy)
            req now).2, reg', evs) := by
  rcases hlist : r.providers.list now with ⟨_ | ⟨first, rest⟩, L⟩
  · -- no provider at all: nothing is found
    exact absurd (by simp [found, hlist, candidates]) hne
  · rcases hC : ({ r with providers := L } : Router).candidates reg (first :: rest) req now with
      ⟨cs, r₁, reg', evs⟩
    have hfound : r.found reg req now = cs := by simp [found, hlist, hC]
    have hbal := candidates_balancer ({ r with providers := L } : Router) reg (first :: rest) req now
    rw [hC] at hbal
    refine ⟨first, r₁, reg', evs, hbal, ?_⟩
    rw [hfound]
    unfold route
    rw [hlist]
    dsimp only
    rw [hC]
    cases req.strategy <;> rfl

/-- The pick of a turn among candidates: the candidate at the position, or the first
candidate when the position names none. -/
def turnPick (cs : List Provider) (i : Option Nat) : Provider :=
  (i.map fun j => cs.getD j (cs.headD default)).getD (cs.headD default)

/-- Choosing in turn: the balancer's turn among the candidates, score 0, the other
candidates' names (three at most) as alternatives. -/
theorem select_roundRobin (r : Router) (cs : List Provider) (text : String)
    (cid : Option String) (now : Float) :
    r.select cs text .roundRobin cid now =
      (⟨turnPick cs (r.balancer.nextInTurn cs.length).1, .known .roundRobin, 0,
          (othersThan cs (turnPick cs (r.balancer.nextInTurn cs.length).1)).take maxAlternatives,
          "Round robin selection", cid, now⟩,
        { r with balancer := (r.balancer.nextInTurn cs.length).2 }) := by
  unfold select turnPick
  rcases r.balancer.nextInTurn cs.length with ⟨_ | i, b⟩ <;> rfl

/-- A request routed in turn that finds candidates and is answered: the answer is the
balancer's turn among the candidates found, with score 0 and the first three other
candidates as alternatives, and the balancer has taken that turn. -/
theorem route_in_turn {r r' : Router} {reg reg' : Breaker.Registry} {req : RouteRequest}
    {now : Float} {d : Decision} {evs : List Breaker.Event}
    (hset : (req.strategy.map .known).getD r.defaultStrategy = .known .roundRobin)
    (hne : r.found reg req now ≠ []) (hout : r.route reg req now = (.ok d, r', reg', evs)) :
    d.provider = turnPick (r.found reg req now) (r.balancer.nextInTurn (r.found reg req now).length).1 ∧
      d.score = 0 ∧
      d.alternatives = (othersThan (r.found reg req now) d.provider).take maxAlternatives ∧
      r'.balancer = (r.balancer.nextInTurn (r.found reg req now).length).2 := by
  obtain ⟨first, r₁, reg₁, evs₁, hbal, hroute⟩ := route_of_found hne
  rw [hroute, hset] at hout
  generalize r.found reg req now = cs at hne hout ⊢
  have hnow : (Clock.clip? now).isSome = true := by
    cases h : (Clock.clip? now).isSome
    · have hnone : (Clock.clip? now).isNone = true := by simpa using h
      have hempty : cs.isEmpty = false := by simpa [List.isEmpty_iff] using hne
      simp only [choose, hempty, Bool.false_eq_true, if_false] at hout
      rw [if_pos hnone] at hout
      cases hout
    · rfl
  rw [choose_known r₁ first req .roundRobin hnow hne, select_roundRobin, hbal] at hout
  simp only [Prod.mk.injEq, Except.ok.injEq] at hout
  obtain ⟨rfl, rfl, -, -⟩ := hout
  exact ⟨rfl, rfl, rfl, rfl⟩

/-- Requests routed in turn one after another, the router and the breakers carried
from each to the next, each finding the candidates `cs` and each answered: the
answers in order, from the router the first started with to the router the last
left. -/
inductive RoutedInTurn (cs : List Provider) : Router → Breaker.Registry → List Decision → Router → Prop
  | nil (r : Router) (reg : Breaker.Registry) : RoutedInTurn cs r reg [] r
  | step {r r' r'' : Router} {reg reg' : Breaker.Registry} {req : RouteRequest} {now : Float}
      {d : Decision} {evs : List Breaker.Event} {ds : List Decision} :
      (req.strategy.map .known).getD r.defaultStrategy = .known .roundRobin →
      r.found reg req now = cs →
      r.route reg req now = (.ok d, r', reg', evs) →
      RoutedInTurn cs r' reg' ds r'' →
      RoutedInTurn cs r reg (d :: ds) r''

/-- Requests routed in turn one after another over the candidates `cs`, from a cursor
holding `c`: the `i`-th picks the candidate at `(c + 1 + i) % |cs|`, and every
answer scores 0 and names the first three other candidates. -/
theorem RoutedInTurn.picks {cs : List Provider} (hne : cs ≠ []) (hk : cs.length < 2 ^ 53) :
    ∀ {r : Router} {reg : Breaker.Registry} {ds : List Decision} {r'' : Router},
      RoutedInTurn cs r reg ds r'' → ∀ {c : Nat}, Whole r.balancer.cursor c → c + 1 < 2 ^ 53 →
      ds.map (·.provider) = (List.range ds.length).map (fun i => cs.getD ((c + 1 + i) % cs.length) default) ∧
        ∀ d ∈ ds, d.score = 0 ∧ d.alternatives = (othersThan cs d.provider).take maxAlternatives
  | _, _, _, _, .nil _ _, _, _, _ => ⟨rfl, by simp⟩
  | _, _, _, _, .step hset hfound hout hrest, c, hc, hc' => by
    have hpos : 0 < cs.length := List.length_pos_iff.2 hne
    obtain ⟨hd, hscore, halts, hbal⟩ := route_in_turn hset (hfound ▸ hne) hout
    rw [hfound] at hd halts hbal
    obtain ⟨hpick, hnext, -⟩ := Balancer.nextInTurn_whole hc hc' hpos hk
    rw [← hbal] at hnext
    obtain ⟨hmap, hall⟩ := hrest.picks hne hk hnext (by have := Nat.mod_lt (c + 1) hpos; omega)
    refine ⟨?_, ?_⟩
    · rw [List.map_cons, hmap, List.length_cons, List.range_succ_eq_map, List.map_cons, List.map_map,
        hd, hpick]
      congr 1
      · simp only [turnPick, Option.map_some, Option.getD_some, Nat.add_zero]
        rw [List.getD_eq_getElem _ _ (Nat.mod_lt _ hpos), List.getD_eq_getElem _ _ (Nat.mod_lt _ hpos)]
      · apply List.map_congr_left
        intro i _
        simp only [Function.comp_apply, mod_succ_add]
    · intro d' hd'
      rcases List.mem_cons.1 hd' with rfl | hd'
      · exact ⟨hscore, halts⟩
      · exact hall d' hd'

/-- Routing in turn for `m` rounds over `k` candidates picks the candidates `m`
times over, in some order. -/
theorem RoutedInTurn.perm {cs : List Provider} {r : Router} {reg : Breaker.Registry}
    {ds : List Decision} {r'' : Router} (h : RoutedInTurn cs r reg ds r'') (hne : cs ≠ [])
    (hk : cs.length < 2 ^ 53) {c : Nat} (hc : Whole r.balancer.cursor c) (hc' : c + 1 < 2 ^ 53)
    {m : Nat} (hm : ds.length = m * cs.length) :
    (ds.map (·.provider)).Perm (List.replicate m cs).flatten := by
  rw [(h.picks hne hk hc hc').1, hm]
  exact map_range_mul_perm cs (c + 1) m default

end Router

/-- Round robin visits every candidate once per cycle. From a cursor holding any whole
number `c` (still exact when moved one on) and over `k ≥ 1` candidates:

* `k` turns in a row pick the positions `(c + 1 + i) % k` for `i < k`, every position
  once;
* requests routed in turn one after another, each finding the same candidates `cs`,
  pick `cs[(c + 1 + i) % |cs|]` in turn, so `m · |cs|` of them pick the candidates `m`
  times over; every answer scores 0 and names the first three other candidates;
* with no candidate a turn picks nothing and leaves the balancer as it was;
* a reset puts the cursor back to 0. -/
theorem turns_cycle_through_candidates :
    (∀ {κ : Type} (b : Balancer κ) (c k : Nat), Whole b.cursor c → c + 1 < 2 ^ 53 → 0 < k →
      k < 2 ^ 53 →
      (b.inTurns k k).1 = (List.range k).map (fun i => some ((c + 1 + i) % k)) ∧
        ((List.range k).map fun i => (c + 1 + i) % k).Perm (List.range k)) ∧
    (∀ (cs : List Provider) (r r'' : Router) (reg : Breaker.Registry) (ds : List Decision) (c m : Nat),
      Router.RoutedInTurn cs r reg ds r'' → cs ≠ [] → cs.length < 2 ^ 53 →
      Whole r.balancer.cursor c → c + 1 < 2 ^ 53 → ds.length = m * cs.length →
      ds.map (·.provider) =
          (List.range ds.length).map (fun i => cs.getD ((c + 1 + i) % cs.length) default) ∧
        (ds.map (·.provider)).Perm (List.replicate m cs).flatten ∧
        ∀ d ∈ ds, d.score = 0 ∧ d.alternatives = (othersThan cs d.provider).take maxAlternatives) ∧
    (∀ {κ : Type} (b : Balancer κ), b.nextInTurn 0 = (none, b)) ∧
    (∀ {κ : Type} (b : Balancer κ), b.reset.cursor = 0) := by
  refine ⟨fun b c k hc hc' hk hk' => ⟨Balancer.inTurns_whole hk hk' k b c hc hc',
      map_range_mod_perm (c + 1) k⟩, ?_, Balancer.nextInTurn_zero, fun _ => rfl⟩
  intro cs r r'' reg ds c m h hne hk hc hc' hm
  obtain ⟨hpicks, hall⟩ := h.picks hne hk hc hc'
  exact ⟨hpicks, h.perm hne hk hc hc' hm, hall⟩

/-- A provider of the given name with the defaults for everything else. -/
def offeredAt (name : String) : Provider :=
  ⟨name, .openaiCompatible, some (.str "m"), 10, 1, 1, 1000, .num 4096, [.str "chat"], .bool true,
    60, .num 0, .null, .num 1, .null⟩

/-- A router with the providers "a" and "b", registered at the same time. -/
def pairRouter : Router :=
  { ledger := Ledger.create {} [] 1773144000000,
    providers := ⟨[⟨offeredAt "a", 1773144000000⟩, ⟨offeredAt "b", 1773144000000⟩]⟩ }

/-- A request routed in turn. -/
def inTurnRequest : RouteRequest := { inputText := "q", strategy := some .roundRobin }

/-- The answer routing in turn gives at the registration time: a provider, and the
other one as the alternative. -/
def inTurnAnswer (p other : String) : Decision :=
  ⟨offeredAt p, .known .roundRobin, 0, [other], "Round robin selection", none, 1773144000000⟩

/-- Two requests routed in turn over "a" and "b", from a new balancer: "b", then "a". -/
theorem pair_routed_twice :
    Router.RoutedInTurn [offeredAt "a", offeredAt "b"] pairRouter {}
      [inTurnAnswer "b" "a", inTurnAnswer "a" "b"]
      ((pairRouter.route {} inTurnRequest 1773144000000).2.1.route
        (pairRouter.route {} inTurnRequest 1773144000000).2.2.1 inTurnRequest 1773144000000).2.1 := by
  have h₁ : (pairRouter.route {} inTurnRequest 1773144000000).1 = .ok (inTurnAnswer "b" "a") := rfl
  have h₂ : ((pairRouter.route {} inTurnRequest 1773144000000).2.1.route
        (pairRouter.route {} inTurnRequest 1773144000000).2.2.1 inTurnRequest 1773144000000).1 =
      .ok (inTurnAnswer "a" "b") := rfl
  exact .step rfl rfl (by rw [← h₁]) (.step rfl rfl (by rw [← h₂]) (.nil _ _))

/-- From a cursor at 7, three turns among three candidates pick positions 2, 0, 1; and
two requests routed in turn over "a" and "b" from a new balancer pick both, once each. -/
theorem turns_from_seven_and_routes_over_pair :
    (({ cursor := 7 } : Balancer String).inTurns 3 3).1 = [some 2, some 0, some 1] ∧
      ([inTurnAnswer "b" "a", inTurnAnswer "a" "b"].map (·.provider)).Perm
        (List.replicate 1 [offeredAt "a", offeredAt "b"]).flatten :=
  ⟨(turns_cycle_through_candidates.1 { cursor := 7 } 7 3 (Whole.toFloat (n := 7) (by decide))
      (by decide) (by decide) (by decide)).1,
    (turns_cycle_through_candidates.2.1 _ _ _ _ _ 0 1 pair_routed_twice (by simp) (by decide)
      Whole.zero (by decide) rfl).2.1⟩

end LaneGate
