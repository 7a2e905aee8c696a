import LaneGate.Breaker.Registry
import LaneGate.Proofs.Breaker.Steps
import LaneGate.Proofs.Breaker.Settings
/-!
# The registry of named breakers

A registry files breakers by name, in the order they were created, and answers the
calls of `Registry.call`. Its behaviour is that of a map from names to settings in
which the first settings win: the settings of its breakers, oldest first
(`Registry.configs`), change on every call as `Call.shelve` says (`configs_call`).
Asking for a name files settings only when the name is missing and the settings
pass their checks, at the end; removing a name drops it; nothing else changes which
settings are filed under which name, in which order.

Names are matched as keys are (`Key.same`): an equivalence on the names a caller
can repeat (`Key.same_comm`, `Key.same_trans`). Every registry built by calls keeps
its names apart, each filed once (`Apart`, `Apart.run`).

Main statement, `registry_first_settings_win`, over every history of calls: the
names are apart and the settings are those the first-settings-win map files; a lookup
finds exactly the names listed; asking for a name that is filed answers the breaker
filed under it and changes nothing, whatever settings come with it, and keeps doing
so until a call removes the name; asking for a missing name fails exactly when its
settings do not pass, with a configuration fault that changes nothing, and otherwise
files a new breaker under that very name; reading or resetting a missing name fails
with `NotFoundError` and changes nothing; and resetting every breaker leaves each
closed, both streaks cleared and every other counter but the number of changes of
state as it was.
-/

/-! ## Matching names -/

namespace LaneGate.Key

/-- Matching names is symmetric. -/
theorem same_comm (a b : Option Json) : same a b = same b a := by
  rcases a with _ | ⟨_ | x | x | x | x | x⟩ <;> rcases b with _ | ⟨_ | y | y | y | y | y⟩ <;>
    simp only [same]
  · exact Bool.beq_comm
  · rw [Decimal.beq_comm, Bool.and_comm]
  · exact Bool.beq_comm

/-- Numbers match when they are `==`, or both not-a-number; that is transitive. -/
theorem num_trans {x y z : Float} (h₁ : (x == y || x.isNaN && y.isNaN) = true)
    (h₂ : (y == z || y.isNaN && z.isNaN) = true) : (x == z || x.isNaN && z.isNaN) = true := by
  cases hy : y.isNaN
  · -- `y` is a number, so both matches are `==`
    rw [hy, Bool.and_false, Bool.or_false] at h₁
    rw [hy, Bool.false_and, Bool.or_false] at h₂
    rw [Decimal.beq_trans h₁ h₂, Bool.true_or]
  · -- `y` is not-a-number, so both others are
    rw [Decimal.beq_of_isNaN_right x hy, Bool.false_or, hy, Bool.and_true] at h₁
    rw [Decimal.beq_of_isNaN hy, Bool.false_or, hy, Bool.true_and] at h₂
    rw [h₁, h₂, Bool.and_self, Bool.or_true]

/-- Matching names is transitive. -/
theorem same_trans {a b c : Option Json} (h₁ : same a b = true) (h₂ : same b c = true) :
    same a c = true := by
  rcases b with _ | ⟨_ | y | y | y | y | y⟩ <;> rcases a with _ | ⟨_ | x | x | x | x | x⟩ <;>
    simp only [same, reduceCtorEq] at h₁ <;> rcases c with _ | ⟨_ | z | z | z | z | z⟩ <;>
    simp only [same, reduceCtorEq] at h₂ ⊢
  · rw [beq_iff_eq] at h₁ h₂ ⊢; exact h₁.trans h₂
  · exact num_trans h₁ h₂
  · rw [beq_iff_eq] at h₁ h₂ ⊢; exact h₁.trans h₂

theorem beq_comm (a b : Key) : (a == b) = (b == a) := same_comm _ _

theorem beq_trans {a b c : Key} (h₁ : (a == b) = true) (h₂ : (b == c) = true) : (a == c) = true :=
  same_trans h₁ h₂

/-- A name that matches one of two matching names matches the other. -/
theorem beq_congr {a b c : Key} (h : (a == b) = true) : (a == c) = (b == c) := by
  cases hb : b == c
  · cases ha : a == c
    · rfl
    · rw [beq_comm] at h
      rw [← hb, beq_trans h ha]
  · exact beq_trans h hb

/-- Matching names is a partial equivalence; not reflexive, since a list or an object as a
name matches no name, itself included. -/
instance : PartialEquivBEq Key := ⟨fun h => beq_comm _ _ ▸ h, beq_trans⟩

end LaneGate.Key

namespace LaneGate.Breaker

namespace Breaker

@[simp] theorem create_config (c : Config) (now : Float) : (Breaker.create c now).config = c := rfl

theorem key_eq (b : Breaker) : b.key = b.config.key := rfl

end Breaker

namespace Breaker

/-- A reset clears both streaks and keeps every other counter but the number of
changes of state. -/
theorem reset_stats (b : Breaker) (now : Float) :
    (b.reset now).1.stats =
      { b.stats with
        consecutiveFailures := 0
        consecutiveSuccesses := 0
        stateTransitions := (b.reset now).1.stats.stateTransitions } := by
  by_cases h : b.state = .closed <;> simp [reset, h]

/-- A closed breaker reads closed at any time. -/
theorem readState_of_closed {b : Breaker} (h : b.state = .closed) (t : Float) :
    (b.readState t).value = .closed := by
  rw [readState_value, settle_of_ne_opened b t (by rw [h]; decide), h]

end Breaker

namespace Registry

variable {r : Registry} {name : Key} {now : Float}

/-! ## Settings and names -/

/-- The settings of the breakers, oldest first. -/
def configs (r : Registry) : List Config := r.breakers.map (·.config)

theorem names_eq_configs (r : Registry) : r.names = r.configs.map Config.key := by
  simp only [names, configs, List.map_map]
  rfl

/-- Each name is filed once: no two breakers have names that match. -/
def Apart (r : Registry) : Prop := r.names.Pairwise fun a b => (a == b) = false

theorem apart_iff : Apart r ↔ r.breakers.Pairwise fun x y => (x.key == y.key) = false := by
  rw [Apart, names, List.pairwise_map]

/-- In a registry whose names are apart, two breakers with matching names are one. -/
theorem Apart.config_eq (hA : Apart r) {x y : Breaker} (hx : x ∈ r.breakers) (hy : y ∈ r.breakers)
    (h : (x.key == y.key) = true) : x.config = y.config := by
  by_cases hxy : x = y
  · rw [hxy]
  · have : Std.Symm fun x y : Breaker => (x.key == y.key) = false :=
      ⟨fun a b h => by rw [Key.beq_comm]; exact h⟩
    rw [(apart_iff.1 hA).forall hx hy hxy] at h
    cases h

/-! ## Lookups -/

theorem find?_mem {b : Breaker} (h : r.find? name = some b) : b ∈ r.breakers ∧ (b.key == name) = true :=
  ⟨List.mem_of_find?_eq_some h, List.find?_some (p := fun x : Breaker => x.key == name) (l := r.breakers) h⟩

theorem has_eq (r : Registry) (name : Key) : r.has name = r.names.any (· == name) := by
  simp only [has, find?, names, List.any_map, List.isSome_find?]
  rfl

/-- The settings filed under a name, found among the settings. -/
theorem find?_config (r : Registry) (name : Key) :
    (r.find? name).map (·.config) = r.configs.find? (·.key == name) := by
  simp only [find?, configs, List.find?_map]
  rfl

/-- Every name that has a breaker in `r` has one in `r'`. -/
def Keeps (r r' : Registry) : Prop := ∀ name, (r.find? name).isSome → (r'.find? name).isSome

theorem Keeps.refl (r : Registry) : r.Keeps r := fun _ h => h

theorem Keeps.trans {r₁ r₂ r₃ : Registry} (h₁ : r₁.Keeps r₂) (h₂ : r₂.Keeps r₃) : r₁.Keeps r₃ :=
  fun name h => h₂ name (h₁ name h)

/-- Replacing a breaker keeps every name: what it replaces is filed under a matching
name, which the new one matches too. -/
theorem keeps_update (r : Registry) (b : Breaker) : r.Keeps (r.update b) := by
  intro name h
  unfold find? update at *
  obtain ⟨x, hx, hxn⟩ := List.find?_isSome.1 h
  refine List.find?_isSome.2 ⟨if x.key == b.key then b else x, List.mem_map_of_mem hx, ?_⟩
  split
  · next hxb => exact Key.beq_trans (by rw [Key.beq_comm]; exact hxb) hxn
  · exact hxn

/-! ## What each operation does to the breakers -/

/-- Obtaining a breaker keeps every name that had one, and leaves one under the name
asked for, when the settings made for a name carry that name. -/
theorem obtain_isSome {r r' : Registry} {name : Key} {make : Key → Except Fault Config} {b : Breaker}
    (hmake : ∀ c, make name = .ok c → (c.key == name) = true) (h : r.obtain name make now = .ok (b, r')) :
    (r'.find? name).isSome ∧ r.Keeps r' := by
  unfold obtain at h
  rcases hfound : r.find? name with _ | b'
  · rw [hfound] at h
    rcases hc : make name with f | c
    · rw [hc] at h
      cases h
    · rw [hc] at h
      cases h
      unfold find?
      refine ⟨List.find?_isSome.2 ⟨_, List.mem_append_right _ (List.mem_singleton_self _), hmake c hc⟩,
        fun k hk => ?_⟩
      obtain ⟨x, hx, hxk⟩ := List.find?_isSome.1 hk
      exact List.find?_isSome.2 ⟨x, List.mem_append_left _ hx, hxk⟩
  · rw [hfound] at h
    cases h
    exact ⟨by rw [hfound]; rfl, .refl r⟩

/-- A breaker that is filed is answered as it is, and nothing changes. -/
theorem obtain_of_find? {b : Breaker} {make : Key → Except Fault Config} (h : r.find? name = some b) :
    r.obtain name make now = .ok (b, r) := by
  simp only [obtain, h]

/-- A missing name gets a new breaker, at the end, when its settings are made. -/
theorem obtain_of_find?_none {make : Key → Except Fault Config} (h : r.find? name = none) :
    r.obtain name make now = (make name).map fun c => (Breaker.create c now, ⟨r.breakers ++ [Breaker.create c now]⟩) := by
  simp only [obtain, h]
  cases make name <;> rfl

/-- Running an operation on every breaker replaces each by its result, in place. -/
theorem forEach_eq {α : Type} (r : Registry) (op : Breaker → Step α) :
    r.forEach op = (r.breakers.map fun b => (b.key, (op b).value),
      ⟨r.breakers.map fun b => (op b).breaker⟩, r.breakers.flatMap fun b => (op b).events) := by
  -- the fold appends one breaker's result to each of the three accumulators
  have hfold : ∀ (bs : List Breaker) (acc : List (Key × α) × List Breaker × List Event),
      bs.foldl (fun (acc : List (Key × α) × List Breaker × List Event) b =>
        (acc.1 ++ [(b.key, (op b).value)], acc.2.1 ++ [(op b).breaker], acc.2.2 ++ (op b).events)) acc =
      (acc.1 ++ bs.map fun b => (b.key, (op b).value), acc.2.1 ++ bs.map fun b => (op b).breaker,
        acc.2.2 ++ bs.flatMap fun b => (op b).events) := by
    intro bs
    induction bs with
    | nil => intro acc; simp
    | cons b bs ih => intro acc; rw [List.foldl_cons, ih]; simp
  unfold forEach
  rw [hfold]
  simp

theorem configs_forEach {α : Type} (op : Breaker → Step α) (hop : ∀ b, (op b).breaker.config = b.config) :
    (r.forEach op).2.1.configs = r.configs := by
  simp [forEach_eq, configs, hop]

/-- Replacing a filed breaker by a later version of it keeps the settings in place. -/
theorem configs_update (hA : Apart r) {b b' : Breaker} (hb : b ∈ r.breakers)
    (hc : b'.config = b.config) : (r.update b').configs = r.configs := by
  simp only [update, configs, List.map_map]
  refine List.map_congr_left fun x hx => ?_
  show (if x.key == b'.key then b' else x).config = x.config
  split
  · rename_i hk
    have hkey : b'.key = b.key := by rw [Breaker.key_eq, hc]; rfl
    rw [hkey] at hk
    rw [hc, hA.config_eq hx hb hk]
  · rfl

theorem configs_remove (r : Registry) (name : Key) :
    (r.remove name).1.configs = r.configs.filter fun c => !(c.key == name) := by
  simp only [remove, configs, List.filter_map]
  rfl

theorem require_of_find? {b : Breaker} (h : r.find? name = some b) : r.require name = .ok b := by
  simp only [require, h]

theorem require_of_find?_none (h : r.find? name = none) :
    r.require name = .error (.notFound (Json.ofString "Circuit breaker") name) := by
  simp only [require, h]

theorem reset_of_find? {b : Breaker} (h : r.find? name = some b) :
    r.reset name now = .ok ((b.reset now).1, r.update (b.reset now).1, (b.reset now).2) := by
  simp only [reset, require_of_find? h]
  rfl

theorem reset_of_find?_none (h : r.find? name = none) :
    r.reset name now = .error (.notFound (Json.ofString "Circuit breaker") name) := by
  simp only [reset, require_of_find?_none h]
  rfl

/-! ## Calls through the settings they file -/

/-- What a call does to the settings of a map of breakers in which the first settings
win: asking for a missing name files the settings made for it, at the end, when they
pass; removing a name drops the settings filed under it; no other call changes the
settings. -/
def Call.shelve : Call → List Config → List Config
  | .get name failure success recovery policy, cs =>
    if cs.any (·.key == name) then cs
    else
      match Config.make name.value failure success recovery policy with
      | .ok c => cs ++ [c]
      | .error _ => cs
  | .remove name, cs => cs.filter fun c => !(c.key == name)
  | _, cs => cs

theorem any_configs (r : Registry) (name : Key) : r.configs.any (·.key == name) = r.has name := by
  rw [has_eq, names_eq_configs, List.any_map]
  rfl

theorem has_of_find? {b : Breaker} (h : r.find? name = some b) : r.has name = true := by
  simp [has, h]

theorem has_of_find?_none (h : r.find? name = none) : r.has name = false := by
  simp [has, h]

/-- Every call changes the settings as the first-settings-win map does. -/
theorem configs_call (hA : Apart r) (c : Call) : (r.call now c).2.1.configs = c.shelve r.configs := by
  cases c with
  | get name failure success recovery policy =>
    simp only [call, Call.shelve, any_configs]
    cases hf : r.find? name with
    | some b => rw [obtain_of_find? hf, has_of_find? hf, if_pos rfl]
    | none =>
      rw [obtain_of_find?_none hf, has_of_find?_none hf]
      cases Config.make name.value failure success recovery policy with
      | error f => rfl
      | ok cfg => simp [configs, Except.map]
  | find name => rfl
  | has name => rfl
  | require name => rfl
  | names => rfl
  | allStats => exact configs_forEach _ fun b => by simp
  | reset name =>
    simp only [call, Call.shelve]
    cases hf : r.find? name with
    | some b => rw [reset_of_find? hf]; exact configs_update hA (find?_mem hf).1 (by simp)
    | none => rw [reset_of_find?_none hf]
  | resetAll => exact configs_forEach _ fun b => by simp
  | remove name => exact configs_remove r name

/-! ## Names stay apart -/

/-- No two of these settings are filed under matching names. -/
def KeysApart (cs : List Config) : Prop := (cs.map Config.key).Pairwise fun a b => (a == b) = false

theorem apart_iff_configs : Apart r ↔ KeysApart r.configs := by
  rw [Apart, KeysApart, names_eq_configs]

/-- Settings made for a name are filed under that very name. -/
theorem key_of_make {c : Config} {failure success recovery : Option Given} {policy : FailurePolicy}
    (h : Config.make name.value failure success recovery policy = .ok c) : c.key = name := by
  show Key.mk c.name = name
  rw [(Config.make_ok h).1]

theorem KeysApart.shelve {cs : List Config} (h : KeysApart cs) (c : Call) : KeysApart (c.shelve cs) := by
  cases c with
  | get name failure success recovery policy =>
    simp only [Call.shelve]
    split
    · exact h
    · rename_i hnone
      split
      · rename_i cfg hmake
        simp only [KeysApart, List.map_append, List.map_cons, List.map_nil, List.pairwise_append,
          List.pairwise_singleton, List.mem_singleton, key_of_make hmake]
        refine ⟨h, trivial, fun a ha b hb => ?_⟩
        subst hb
        obtain ⟨x, hx, rfl⟩ := List.mem_map.1 ha
        simpa using List.any_eq_false.1 (Bool.not_eq_true _ ▸ hnone) x hx
      · exact h
  | remove name => exact List.Pairwise.sublist (List.Sublist.map _ (List.filter_sublist)) h
  | _ => exact h

/-- Calls keep the names of a registry apart. -/
theorem Apart.call (hA : Apart r) (c : Call) : Apart (r.call now c).2.1 := by
  rw [apart_iff_configs, configs_call hA]
  exact (apart_iff_configs.1 hA).shelve c

/-! ## Histories of calls -/

/-- Makes calls one after another, each at its time: the registry after them and the
answers, in order. -/
def run (r : Registry) : List (Float × Call) → Registry × List (Except Fault Answer)
  | [] => (r, [])
  | (now, c) :: rest =>
    let after := (r.call now c).2.1.run rest
    (after.1, (r.call now c).1 :: after.2)

@[simp] theorem run_nil (r : Registry) : r.run [] = (r, []) := rfl

@[simp] theorem run_cons (r : Registry) (now : Float) (c : Call) (rest : List (Float × Call)) :
    (r.run ((now, c) :: rest)).1 = ((r.call now c).2.1.run rest).1 := rfl

theorem apart_empty : Apart {} := List.Pairwise.nil

/-- Every history of calls keeps the names apart. -/
theorem Apart.run (hA : Apart r) (calls : List (Float × Call)) : Apart (r.run calls).1 := by
  induction calls generalizing r with
  | nil => exact hA
  | cons c rest ih => exact ih (hA.call c.2)

/-- Over a history of calls the settings change as the first-settings-win map's do. -/
theorem configs_run (hA : Apart r) (calls : List (Float × Call)) :
    (r.run calls).1.configs = calls.foldl (fun cs c => c.2.shelve cs) r.configs := by
  induction calls generalizing r with
  | nil => rfl
  | cons c rest ih => rw [run_cons, ih (hA.call c.2), List.foldl_cons, configs_call hA]

/-- The breaker filed under a name has these settings. -/
def Holds (r : Registry) (name : Key) (c : Config) : Prop := r.configs.find? (·.key == name) = some c

theorem holds_iff {c : Config} : Holds r name c ↔ ∃ b, r.find? name = some b ∧ b.config = c := by
  rw [Holds, ← find?_config, Option.map_eq_some_iff]

/-- The first of a list to pass a test is the first to pass it and a second test it
passes too. -/
theorem find?_and {α : Type} {p q : α → Bool} {l : List α} {a : α} (h : l.find? p = some a)
    (hq : q a = true) : l.find? (fun x => p x && q x) = some a := by
  induction l with
  | nil => cases h
  | cons x xs ih =>
    by_cases hx : p x = true
    · rw [List.find?_cons_of_pos hx] at h
      cases h
      exact List.find?_cons_of_pos (by rw [hx, hq]; rfl)
    · rw [List.find?_cons_of_neg hx] at h
      rw [List.find?_cons_of_neg (by simp [hx])]
      exact ih h

/-- A call that removes no matching name keeps the settings filed under a name. -/
theorem shelve_find? {cs : List Config} {c : Config} (h : cs.find? (·.key == name) = some c)
    (call : Call) (hcall : ∀ n, call = .remove n → (n == name) = false) :
    (call.shelve cs).find? (·.key == name) = some c := by
  cases call with
  | get n failure success recovery policy =>
    simp only [Call.shelve]
    split
    · exact h
    · split <;> simp [List.find?_append, h]
  | remove n =>
    simp only [Call.shelve]
    rw [List.find?_filter]
    have hkeep : (!(c.key == n)) = true := by
      rw [Key.beq_congr (List.find?_some (p := fun x : Config => x.key == name) h), Key.beq_comm,
        hcall n rfl]
      rfl
    have := find?_and (q := fun x : Config => !(x.key == n)) h hkeep
    simpa [Bool.and_comm] using this
  | _ => exact h

/-- A history that removes no matching name keeps the settings filed under a name. -/
theorem Holds.run {c : Config} (hh : Holds r name c) (hA : Apart r) (calls : List (Float × Call))
    (hcalls : ∀ now n, (now, Call.remove n) ∈ calls → (n == name) = false) :
    Holds (r.run calls).1 name c := by
  induction calls generalizing r with
  | nil => exact hh
  | cons c' rest ih =>
    rw [run_cons]
    refine ih ?_ (hA.call c'.2) fun now n hn => hcalls now n (List.mem_cons_of_mem _ hn)
    rw [Holds, configs_call hA]
    exact shelve_find? hh c'.2 fun n hn => hcalls c'.1 n (by rw [← hn]; exact List.mem_cons_self)

/-! ## Answers -/

theorem has_eq_false_iff : r.has name = false ↔ r.find? name = none := by
  simp [has]

section get

variable (failure success recovery : Option Given) (policy : FailurePolicy)

/-- Asking for a filed name answers the breaker filed under it and changes nothing,
whatever settings come with the request. -/
theorem call_get_of_find? {b : Breaker} (h : r.find? name = some b) :
    r.call now (.get name failure success recovery policy) = (.ok (.breaker b), r, []) := by
  simp only [call, obtain_of_find? h]

/-- Asking for a missing name whose settings pass files a new breaker at the end. -/
theorem call_get_of_make {c : Config} (hm : r.has name = false)
    (h : Config.make name.value failure success recovery policy = .ok c) :
    r.call now (.get name failure success recovery policy) =
      (.ok (.breaker (Breaker.create c now)), ⟨r.breakers ++ [Breaker.create c now]⟩, []) := by
  simp only [call, obtain_of_find?_none (has_eq_false_iff.1 hm), h]
  rfl

/-- Asking for a missing name whose settings do not pass answers their fault and
changes nothing. -/
theorem call_get_of_refused {f : Fault} (hm : r.has name = false)
    (h : Config.make name.value failure success recovery policy = .error f) :
    r.call now (.get name failure success recovery policy) = (.error f, r, []) := by
  simp only [call, obtain_of_find?_none (has_eq_false_iff.1 hm), h]
  rfl

/-- A request for a breaker fails only for a missing name whose settings do not pass,
with a configuration fault, and then changes nothing. -/
theorem call_get_error {f : Fault} (h : (r.call now (.get name failure success recovery policy)).1 = .error f) :
    r.has name = false ∧ Config.make name.value failure success recovery policy = .error f ∧
      (r.call now (.get name failure success recovery policy)).2 = (r, []) ∧
      ∃ message, f = .configuration message := by
  cases hf : r.find? name with
  | some b => rw [call_get_of_find? _ _ _ _ hf] at h; cases h
  | none =>
    have hm := has_of_find?_none hf
    cases hmake : Config.make name.value failure success recovery policy with
    | ok c => rw [call_get_of_make _ _ _ _ hm hmake] at h; cases h
    | error e =>
      rw [call_get_of_refused _ _ _ _ hm hmake] at h ⊢
      cases h
      exact ⟨hm, rfl, rfl, Config.make_error hmake⟩

/-- A request for a missing name fails exactly when its settings do not pass. -/
theorem call_get_error_iff (hm : r.has name = false) :
    (∃ f, (r.call now (.get name failure success recovery policy)).1 = .error f) ↔
      ¬ Config.Passes failure success recovery := by
  rw [← @Config.make_ok_iff name.value failure success recovery policy]
  constructor
  · rintro ⟨f, hf⟩ ⟨c, hc⟩
    rw [(call_get_error _ _ _ _ hf).2.1] at hc
    cases hc
  · intro hno
    cases hmake : Config.make name.value failure success recovery policy with
    | ok c => exact absurd ⟨c, hmake⟩ hno
    | error e => exact ⟨e, by rw [call_get_of_refused _ _ _ _ hm hmake]⟩

/-- After a request for a name that matches itself, the breaker it answered is filed
under it. -/
theorem holds_of_call_get {b : Breaker} {r' : Registry} {evs : List Event}
    (hself : (name == name) = true)
    (h : r.call now (.get name failure success recovery policy) = (.ok (.breaker b), r', evs)) :
    Holds r' name b.config := by
  cases hf : r.find? name with
  | some b₀ =>
    rw [call_get_of_find? _ _ _ _ hf] at h
    cases h
    exact holds_iff.2 ⟨b, hf, rfl⟩
  | none =>
    have hm := has_of_find?_none hf
    cases hmake : Config.make name.value failure success recovery policy with
    | error e => rw [call_get_of_refused _ _ _ _ hm hmake] at h; cases h
    | ok c =>
      rw [call_get_of_make _ _ _ _ hm hmake] at h
      cases h
      rw [Holds, configs, List.map_append, List.find?_append]
      have hnone : (r.breakers.map (·.config)).find? (·.key == name) = none := by
        rw [← configs, ← find?_config, hf]; rfl
      rw [hnone]
      simp [key_of_make hmake, hself]

/-- While settings are filed under a name, asking for it answers a breaker with those
settings and changes nothing, whatever settings come with the request. -/
theorem call_get_of_holds {c : Config} (hh : Holds r name c) :
    ∃ b, r.call now (.get name failure success recovery policy) = (.ok (.breaker b), r, []) ∧
      b.config = c := by
  obtain ⟨b, hf, hc⟩ := holds_iff.1 hh
  exact ⟨b, call_get_of_find? _ _ _ _ hf, hc⟩

end get

theorem call_require_of_find? {b : Breaker} (h : r.find? name = some b) :
    r.call now (.require name) = (.ok (.breaker b), r, []) := by
  simp only [call, require_of_find? h]
  rfl

theorem call_require_of_missing (h : r.has name = false) :
    r.call now (.require name) = (.error (.notFound (Json.ofString "Circuit breaker") name), r, []) := by
  simp only [call, require_of_find?_none (has_eq_false_iff.1 h)]
  rfl

theorem call_reset_of_find? {b : Breaker} (h : r.find? name = some b) :
    r.call now (.reset name) =
      (.ok (.breaker (b.reset now).1), r.update (b.reset now).1, (b.reset now).2) := by
  simp only [call, reset_of_find? h]

theorem call_reset_of_missing (h : r.has name = false) :
    r.call now (.reset name) = (.error (.notFound (Json.ofString "Circuit breaker") name), r, []) := by
  simp only [call, reset_of_find?_none (has_eq_false_iff.1 h)]

/-- Reading or resetting a name fails exactly when the name is missing. -/
theorem call_require_reset_error_iff :
    ((∃ f, (r.call now (.require name)).1 = .error f) ↔ r.has name = false) ∧
      ((∃ f, (r.call now (.reset name)).1 = .error f) ↔ r.has name = false) := by
  cases hf : r.find? name with
  | some b =>
    rw [call_require_of_find? hf, call_reset_of_find? hf, has_of_find? hf]
    simp
  | none =>
    have hm := has_of_find?_none hf
    rw [call_require_of_missing hm, call_reset_of_missing hm]
    simp [hm]

/-- Resetting every breaker resets each in place. -/
theorem call_resetAll (r : Registry) (now : Float) :
    r.call now .resetAll = (.ok .done, ⟨r.breakers.map fun b => (b.reset now).1⟩,
      r.breakers.flatMap fun b => (b.reset now).2) := by
  simp only [call, resetAll, forEach_eq]

/-- The registry after any history of calls behaves as a map from names to settings
in which the first settings win. -/
theorem registry_first_settings_win (history : List (Float × Call)) :
    let r := (({} : Registry).run history).1
    (Apart r ∧ r.configs = history.foldl (fun cs c => c.2.shelve cs) []) ∧
    (∀ now name, r.has name = r.names.any (· == name) ∧
      (r.find? name = none ↔ r.has name = false) ∧
      ∀ b, r.find? name = some b → b ∈ r.breakers ∧ (b.key == name) = true ∧
        r.call now (.require name) = (.ok (.breaker b), r, [])) ∧
    (∀ now name failure success recovery policy b, r.find? name = some b →
      r.call now (.get name failure success recovery policy) = (.ok (.breaker b), r, [])) ∧
    (∀ now name failure success recovery policy b r' evs (future : List (Float × Call))
        now' failure' success' recovery' policy', (name == name) = true →
      r.call now (.get name failure success recovery policy) = (.ok (.breaker b), r', evs) →
      (∀ t n, (t, Call.remove n) ∈ future → (n == name) = false) →
      ∃ b', ((r'.run future).1).call now' (.get name failure' success' recovery' policy') =
        (.ok (.breaker b'), (r'.run future).1, []) ∧ b'.config = b.config) ∧
    (∀ now name failure success recovery policy, r.has name = false →
      ((∃ f, (r.call now (.get name failure success recovery policy)).1 = .error f) ↔
        ¬ Config.Passes failure success recovery)) ∧
    (∀ now name failure success recovery policy f,
      (r.call now (.get name failure success recovery policy)).1 = .error f →
      r.has name = false ∧ (r.call now (.get name failure success recovery policy)).2 = (r, []) ∧
        ∃ message, f = .configuration message) ∧
    (∀ now name failure success recovery policy c, r.has name = false →
      Config.make name.value failure success recovery policy = .ok c →
      r.call now (.get name failure success recovery policy) =
        (.ok (.breaker (Breaker.create c now)), ⟨r.breakers ++ [Breaker.create c now]⟩, []) ∧
      (Breaker.create c now).key = name) ∧
    (∀ now name,
      ((∃ f, (r.call now (.require name)).1 = .error f) ↔ r.has name = false) ∧
      ((∃ f, (r.call now (.reset name)).1 = .error f) ↔ r.has name = false) ∧
      (r.has name = false →
        r.call now (.require name) = (.error (.notFound (Json.ofString "Circuit breaker") name), r, []) ∧
        r.call now (.reset name) = (.error (.notFound (Json.ofString "Circuit breaker") name), r, []))) ∧
    (∀ now, (r.call now .resetAll).2.1.breakers = r.breakers.map (fun b => (b.reset now).1) ∧
      ∀ b ∈ r.breakers, (b.reset now).1.config = b.config ∧
        (∀ t, ((b.reset now).1.readState t).value = .closed) ∧
        (b.reset now).1.stats =
          { b.stats with
            consecutiveFailures := 0
            consecutiveSuccesses := 0
            stateTransitions := (b.reset now).1.stats.stateTransitions }) := by
  intro r
  have hA : Apart r := apart_empty.run history
  refine ⟨⟨hA, configs_run apart_empty history⟩, ?lookups, ?filed, ?kept, ?refused, ?error,
    ?made, ?missing, ?resetAll⟩
  case lookups =>
    intro now name
    refine ⟨has_eq r name, has_eq_false_iff.symm, fun b hb => ?_⟩
    exact ⟨(find?_mem hb).1, (find?_mem hb).2, call_require_of_find? hb⟩
  case filed =>
    intro now name failure success recovery policy b hb
    exact call_get_of_find? _ _ _ _ hb
  case kept =>
    intro now name failure success recovery policy b r' evs future now' failure' success'
      recovery' policy' hself hget hfuture
    have hr' : r' = (r.call now (.get name failure success recovery policy)).2.1 := by rw [hget]
    have hA' : Apart r' := hr' ▸ hA.call _
    have hh := (holds_of_call_get _ _ _ _ hself hget).run hA' future hfuture
    exact call_get_of_holds _ _ _ _ hh
  case refused =>
    intro now name failure success recovery policy hm
    exact call_get_error_iff _ _ _ _ hm
  case error =>
    intro now name failure success recovery policy f hf
    obtain ⟨hm, -, hsame, hconf⟩ := call_get_error _ _ _ _ hf
    exact ⟨hm, hsame, hconf⟩
  case made =>
    intro now name failure success recovery policy c hm hmake
    exact ⟨call_get_of_make _ _ _ _ hm hmake, key_of_make hmake⟩
  case missing =>
    intro now name
    exact ⟨call_require_reset_error_iff.1, call_require_reset_error_iff.2,
      fun hm => ⟨call_require_of_missing hm, call_reset_of_missing hm⟩⟩
  case resetAll =>
    intro now
    refine ⟨by rw [call_resetAll], fun b _ => ⟨?_, fun t => ?_, b.reset_stats now⟩⟩
    · exact Breaker.reset_config b now
    · exact Breaker.readState_of_closed (Breaker.reset_state b now) t

end Registry

end LaneGate.Breaker
