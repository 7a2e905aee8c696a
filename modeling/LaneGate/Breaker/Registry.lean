import LaneGate.Breaker.Machine
/-!
# Named breakers

The breakers of a process, by name, in the order they were first asked for. Asking
for a breaker that exists returns it whatever settings come with the request: the
first settings win. Asking for a new one builds it from the settings, which may be
refused. Breakers can be looked up, reset and removed by name.

A name is a key (`Key`): usually a text, but any value given, or none, and names
are matched as keys are.
-/

namespace LaneGate.Breaker

/-- The breakers of a process, in the order they were created; names are unique. -/
structure Registry where
  /-- The breakers, oldest first. -/
  breakers : List Breaker := []

namespace Registry

/-- The breaker of a name. -/
def find? (r : Registry) (name : Key) : Option Breaker :=
  r.breakers.find? (·.key == name)

/-- Whether a breaker of that name exists. -/
def has (r : Registry) (name : Key) : Bool := (r.find? name).isSome

/-- The names, oldest first. -/
def names (r : Registry) : List Key := r.breakers.map (·.key)

/-- The names as texts, oldest first. -/
def nameTexts (r : Registry) : List String := r.breakers.map (·.name)

/-- The registry with a breaker replaced by its new version (matched by name). -/
def update (r : Registry) (b : Breaker) : Registry :=
  ⟨r.breakers.map fun x => if x.key == b.key then b else x⟩

/-- The breaker of a name, created from the settings if there is none; an existing
breaker keeps its own settings. -/
def obtain (r : Registry) (name : Key) (make : Key → Except Fault Config) (now : Float) :
    Except Fault (Breaker × Registry) :=
  match r.find? name with
  | some b => .ok (b, r)
  | none => do
    let config ← make name
    let b := Breaker.create config now
    pure (b, ⟨r.breakers ++ [b]⟩)

/-- The breaker of a name, or `NotFoundError`. -/
def require (r : Registry) (name : Key) : Except Fault Breaker :=
  match r.find? name with
  | some b => .ok b
  | none => .error (.notFound (Json.ofString "Circuit breaker") name)

/-- The registry without the breaker of a name, and whether there was one. -/
def remove (r : Registry) (name : Key) : Registry × Bool :=
  (⟨r.breakers.filter (fun b => !(b.key == name))⟩, r.has name)

/-- Runs an operation on every breaker in order, collecting answers and events. -/
def forEach {α : Type} (r : Registry) (op : Breaker → Step α) : List (Key × α) × Registry × List Event :=
  let (answers, bs, evs) := r.breakers.foldl
    (fun (acc : List (Key × α) × List Breaker × List Event) b =>
      let s := op b
      (acc.1 ++ [(b.key, s.value)], acc.2.1 ++ [s.breaker], acc.2.2 ++ s.events))
    ([], [], [])
  (answers, ⟨bs⟩, evs)

/-- Every breaker's settled state and counters, oldest first. -/
def allStats (r : Registry) (now : Float) : List (Key × (State × Stats)) × Registry × List Event :=
  r.forEach fun b =>
    let s := b.readState now
    ⟨(s.value, s.breaker.stats), s.breaker, s.events⟩

/-- Resets every breaker, oldest first. -/
def resetAll (r : Registry) (now : Float) : Registry × List Event :=
  let (_, r, evs) := r.forEach fun b =>
    let (b, evs) := b.reset now
    ⟨(), b, evs⟩
  (r, evs)

/-- Resets the breaker of a name (`NotFoundError` if there is none): the breaker
after the reset, the registry holding it, and the reset's events. -/
def reset (r : Registry) (name : Key) (now : Float) : Except Fault (Breaker × Registry × List Event) := do
  let b ← r.require name
  let (b, evs) := b.reset now
  pure (b, r.update b, evs)

/-- A call on a registry. -/
inductive Call where
  /-- The breaker of a name, created with these settings if there is none. -/
  | get (name : Key) (failure success recovery : Option Given) (policy : FailurePolicy)
  /-- The breaker of a name, if there is one. -/
  | find (name : Key)
  /-- Whether there is a breaker of a name. -/
  | has (name : Key)
  /-- The breaker of a name, or `NotFoundError`. -/
  | require (name : Key)
  /-- The names, oldest first. -/
  | names
  /-- Every breaker's state and counters. -/
  | allStats
  /-- Resets the breaker of a name, or `NotFoundError`. -/
  | reset (name : Key)
  /-- Resets every breaker. -/
  | resetAll
  /-- Removes the breaker of a name, saying whether there was one. -/
  | remove (name : Key)

/-- What a call on a registry answers. -/
inductive Answer where
  /-- A breaker. -/
  | breaker (b : Breaker)
  /-- A breaker or none. -/
  | found (b : Option Breaker)
  /-- A truth value. -/
  | truth (b : Bool)
  /-- Names. -/
  | names (ks : List Key)
  /-- States and counters by name. -/
  | stats (xs : List (Key × (State × Stats)))
  /-- Nothing. -/
  | done

/-- Makes a call at a time: its answer or fault, the registry after it and the events
it emitted. A call that fails leaves the registry as it was. -/
def call (r : Registry) (now : Float) : Call → Except Fault Answer × Registry × List Event
  | .get name failure success recovery policy =>
    match r.obtain name (fun n => Config.make n.value failure success recovery policy) now with
    | .ok (b, r') => (.ok (.breaker b), r', [])
    | .error f => (.error f, r, [])
  | .find name => (.ok (.found (r.find? name)), r, [])
  | .has name => (.ok (.truth (r.has name)), r, [])
  | .require name => ((r.require name).map .breaker, r, [])
  | .names => (.ok (.names r.names), r, [])
  | .allStats =>
    let (xs, r', evs) := r.allStats now
    (.ok (.stats xs), r', evs)
  | .reset name =>
    match r.reset name now with
    | .ok (b, r', evs) => (.ok (.breaker b), r', evs)
    | .error f => (.error f, r, [])
  | .resetAll =>
    let (r', evs) := r.resetAll now
    (.ok .done, r', evs)
  | .remove name =>
    let (r', removed) := r.remove name
    (.ok (.truth removed), r', [])

end Registry

end LaneGate.Breaker
