import LaneGate.Decimal.Format
import LaneGate.Decimal.Remainder
import LaneGate.Json.Primitive
/-!
# Load balancing

The balancer keeps, per provider name, the number of requests in flight and the
last 100 response times, and a round-robin cursor. Given the candidates that may
take a request it picks one:

* in turn: the cursor moves one on (the remainder after dividing by the number of
  candidates) before it picks the candidate at the cursor;
* by weight: a draw `r` in `[0, 1)` times the total of the weights (negative ones
  counting as 0) falls into the interval of the first candidate whose running total
  exceeds it, or the last candidate; with no positive weight it picks at random. This
  pick is written for any number type (`byWeight`): the service runs it on doubles, and
  read with exact numbers it is the same algorithm with exact sums and products;
* by fewest requests in flight, or by least expected latency (the mean of recent
  response times, or the configured average without samples): the first candidate
  strictly better than all before it;
* at random: the candidate at `⌊r · n⌋`.

Draws come from a source of numbers in `[0, 1)`.

Providers are told apart by a name of any type with an equality (`κ`). Picking in
turn or at random needs only the number of candidates and gives a position, a
number that the caller looks up; the other ways pick from a list. The number of
candidates comes as a primitive, and only the number zero means there are none:
the cursor is the remainder of a division by that number made a number, so it can
become a fraction or not a number, and a position that names no candidate picks
nothing.

Response times and configured averages are kept as given, and added and compared
as primitives (`Primitive`): a mean is the sum of the samples from zero, made a
number and divided by their count, and a candidate is faster than the best so far
when its expected latency is below it. The least and greatest response times are
taken of the samples' numbers.
-/

namespace LaneGate

/-- What the balancer needs to know of a candidate. -/
structure Candidate (κ : Type) where
  /-- Its name. -/
  name : κ
  /-- Its share in weighted selection. -/
  weight : Float
  /-- Its configured average latency, in ms, as given (none when missing). -/
  avgLatencyMs : Option Json

/-- A source of draws in `[0, 1)`: a list used over and over, and the position of
the next draw. -/
structure Draws where
  /-- The numbers, used cyclically. -/
  values : List Float := [0.5]
  /-- How many draws were taken. -/
  taken : Nat := 0

/-- The next draw and the source after it; an empty list draws nothing, which
counts as not a number. -/
def Draws.next (d : Draws) : Float × Draws :=
  let x := if d.values.isEmpty then Decimal.notANumber else d.values.getD (d.taken % d.values.length) 0.5
  (x, { d with taken := d.taken + 1 })

/-- The most response times kept per provider. -/
def latencyWindow : Nat := 100

/-- Per-provider load: requests in flight, recent response times, and the cursor. -/
structure Balancer (κ : Type) where
  /-- The round-robin cursor. -/
  cursor : Float := 0
  /-- Requests in flight, by name, in order of first start. -/
  active : List (κ × Nat) := []
  /-- Recent response times, by name, in order of first finish. -/
  latencies : List (κ × List Primitive) := []
  /-- The source of draws. -/
  draws : Draws := {}

/-- A provider's load figures, rounded to one place. -/
structure LoadStats where
  /-- Requests in flight. -/
  activeRequests : Nat
  /-- Response times kept. -/
  sampleCount : Nat
  /-- Their mean. -/
  avgResponseTimeMs : Float
  /-- The shortest. -/
  minResponseTimeMs : Float
  /-- The longest. -/
  maxResponseTimeMs : Float

/-- The mean of samples: their sum from zero, left to right, made a number and
divided by their count. -/
def mean (xs : List Primitive) : Float :=
  (xs.foldl Primitive.add (.num 0)).toNumber / xs.length.toFloat

section Keyed

variable {κ α : Type} [BEq κ]

/-- The value of a key in a list of pairs. -/
def lookup (xs : List (κ × α)) (key : κ) : Option α :=
  (xs.find? (·.1 == key)).map (·.2)

/-- A list of pairs with the value of a key changed (added at the end if new). -/
def upsert (xs : List (κ × α)) (key : κ) (f : Option α → α) : List (κ × α) :=
  if xs.any (·.1 == key) then xs.map fun (k, v) => if k == key then (k, f (some v)) else (k, v)
  else xs ++ [(key, f none)]

end Keyed

/-- Whether a number of candidates says there are none: only the number zero does. -/
def Primitive.isZeroCount : Primitive → Bool
  | .num x => x == 0
  | _ => false

/-- The item of a list of `n` items at a position, if the position is a whole
number below `n` (one that leaves no remainder when divided by one). -/
def positionBelow (n : Nat) (x : Float) : Option Nat :=
  if x ≥ 0 && x < n.toFloat && Decimal.remainder x 1 == 0 then some x.toUInt64.toNat else none

namespace Balancer

variable {κ : Type}

/-- The position of the next candidate in turn among `count` candidates,
moving the cursor first. -/
def roundRobin (b : Balancer κ) (count : Primitive) : Option Float × Balancer κ :=
  if count.isZeroCount then (none, b)
  else
    let c := Decimal.remainder (b.cursor + 1) count.toNumber
    (some c, { b with cursor := c })

/-- The position `⌊r · count⌋` for the next draw `r`. -/
def random (b : Balancer κ) (count : Primitive) : Option Float × Balancer κ :=
  if count.isZeroCount then (none, b)
  else
    let (r, d) := b.draws.next
    (some (Decimal.floorOf (r * count.toNumber)), { b with draws := d })

/-- The index of the next of `n` listed candidates in turn. -/
def nextInTurn (b : Balancer κ) (n : Nat) : Option Nat × Balancer κ :=
  let (i, b) := b.roundRobin (.num n.toFloat)
  (i.bind (positionBelow n), b)

end Balancer

section Weights

variable {α : Type} [Add α] [Mul α] [OfNat α 0] [LE α] [LT α] [DecidableRel (α := α) (· ≤ ·)]
  [DecidableRel (α := α) (· < ·)]

/-- The index of the first weight whose running total, from `acc`, exceeds `target`,
counting from `i`. -/
def firstAbove (target : α) : List α → Nat → α → Option Nat
  | [], _, _ => none
  | w :: ws, i, acc => if target < acc + w then some i else firstAbove target ws (i + 1) (acc + w)

/-- The index a draw `r` picks by weights already cut at zero: that of the first weight
whose running total exceeds `r` times the total of all, or the last when none does; with
no total above zero, the index picked at random (`atRandom`). -/
def byWeight (atRandom : α → Option Nat) (r : α) (ws : List α) : Option Nat :=
  let total := ws.foldl (· + ·) 0
  if total ≤ 0 then atRandom r else some ((firstAbove (r * total) ws 0 0).getD (ws.length - 1))

end Weights

/-- The index `⌊r · n⌋` a draw `r` picks among `n` listed candidates, when it names one. -/
def indexAt (n : Nat) (r : Float) : Option Nat := positionBelow n (Decimal.floorOf (r * n.toFloat))

namespace Balancer

variable {κ : Type}

/-- The index picked by weight, each weight cut at zero. -/
def weighted (b : Balancer κ) (cs : List (Candidate κ)) : Option Nat × Balancer κ :=
  if cs.isEmpty then (none, b)
  else
    let (r, d) := b.draws.next
    (byWeight (indexAt cs.length) r (cs.map fun c => Decimal.maxOf 0 c.weight), { b with draws := d })

/-- The index of the first candidate with a score strictly below all before it,
starting from infinity. -/
def firstBest (score : Candidate κ → Primitive) (cs : List (Candidate κ)) : Option Nat :=
  (cs.foldl (fun (acc : Option Nat × Primitive × Nat) c =>
      let s := score c
      if s.lessThan acc.2.1 then (some acc.2.2, s, acc.2.2 + 1) else (acc.1, acc.2.1, acc.2.2 + 1))
    (none, .num Decimal.infinity, 0)).1

variable [BEq κ]

/-- Requests in flight for a name. -/
def inFlight (b : Balancer κ) (name : κ) : Nat := (lookup b.active name).getD 0

/-- The index of the candidate with the fewest requests in flight. -/
def leastBusy (b : Balancer κ) (cs : List (Candidate κ)) : Option Nat :=
  firstBest (fun c => .num (b.inFlight c.name).toFloat) cs

/-- The expected latency of a candidate: the mean of its recent response times, or
its configured average, as given, without any. -/
def expectedLatency (b : Balancer κ) (c : Candidate κ) : Option Json :=
  match lookup b.latencies c.name with
  | some (x :: xs) => some (.num (mean (x :: xs)))
  | _ => c.avgLatencyMs

/-- The index of the candidate with the least expected latency. -/
def fastest (b : Balancer κ) (cs : List (Candidate κ)) : Option Nat :=
  firstBest (fun c => Primitive.ofOption (b.expectedLatency c)) cs

/-- Counts a started request. -/
def recordStart (b : Balancer κ) (name : κ) : Balancer κ :=
  { b with active := upsert b.active name fun n => n.getD 0 + 1 }

/-- Counts a finished request (never below zero) and keeps its response time. -/
def recordEnd (b : Balancer κ) (name : κ) (ms : Primitive) : Balancer κ :=
  let active :=
    if b.active.any (·.1 == name) then upsert b.active name fun n => n.getD 0 - 1 else b.active
  let latencies := upsert b.latencies name fun xs =>
    let xs := xs.getD [] ++ [ms]
    xs.drop (xs.length - latencyWindow)
  { b with active, latencies }

/-- The load figures of response times and a count in flight. -/
def loadOf (inFlight : Nat) (xs : List Primitive) : LoadStats :=
  let r (x : Float) := if xs.isEmpty then 0 else Decimal.roundTo x 1
  let numbers := xs.map Primitive.toNumber
  ⟨inFlight, xs.length, r (mean xs), r (Decimal.minimum numbers), r (Decimal.maximum numbers)⟩

/-- The load figures of every provider seen, those with requests in flight first,
then those that only finished requests. -/
def stats (b : Balancer κ) : List (κ × LoadStats) :=
  b.active.map (fun (n, k) => (n, loadOf k ((lookup b.latencies n).getD []))) ++
    (b.latencies.filter (fun (n, _) => !b.active.any (·.1 == n))).map fun (n, xs) => (n, loadOf 0 xs)

/-- Forgets all load figures and the cursor; the source of draws goes on. -/
def reset (b : Balancer κ) : Balancer κ := { b with cursor := 0, active := [], latencies := [] }

end Balancer

end LaneGate
