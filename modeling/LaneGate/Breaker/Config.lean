import LaneGate.Fault
import LaneGate.Setting
import LaneGate.Json.Shown
/-!
# Breaker settings

A circuit breaker is set by three numbers: how many consecutive counted failures
open a closed circuit, how many consecutive successes close a half-open one, and
how long an open circuit refuses calls before it lets a trial through. Both thresholds
must be whole numbers of at least one and the waiting time a finite number of at
least zero; they are checked in that order and the first bad one is reported with
the value as given. A threshold is kept as the count it stands for, so settings that
pass the check carry the proof that each threshold is at least one. A setting that is not given takes its default (5, 2 and 30 s).

Which faults count as failures is a setting too, any test of the thrown value: by
default every fault but a rejected input counts.
-/

namespace LaneGate.Breaker

/-- Which faults count against a breaker: any test of the thrown value. -/
structure FailurePolicy where
  /-- Whether a fault counts as a failure. -/
  counts : Fault → Bool

/-- The default: every fault but rejected caller input counts. -/
def FailurePolicy.standard : FailurePolicy := ⟨fun f => !(f matches .inputValidation ..)⟩

/-- The settings of one breaker. -/
structure Config where
  /-- The breaker's name, as given (none when not given at all). -/
  name : Option Json
  /-- Consecutive counted failures that open a closed circuit. -/
  failureThreshold : Nat
  /-- Consecutive successes that close a half-open circuit. -/
  successThreshold : Nat
  /-- How long an open circuit waits before letting a trial through, in ms (finite, ≥ 0). -/
  recoveryTimeoutMs : Float
  /-- Which faults count as failures. -/
  policy : FailurePolicy := .standard
  /-- A single counted failure is the least that can open a circuit. -/
  failureThreshold_pos : 0 < failureThreshold
  /-- A single success is the least that can close a circuit. -/
  successThreshold_pos : 0 < successThreshold

/-- The default failure threshold. -/
def defaultFailureThreshold : Float := 5

/-- The default success threshold. -/
def defaultSuccessThreshold : Float := 2

/-- The default waiting time of an open circuit, in ms. -/
def defaultRecoveryTimeoutMs : Float := 30000

/-- The text of a name as given: `undefined` when there is none. -/
def nameText : Option Json → String
  | some j => Json.shown j
  | none => "undefined"

/-- The name of the breaker as a text. -/
def Config.label (c : Config) : String := nameText c.name

/-- The name of the breaker as a key. -/
def Config.key (c : Config) : Key := ⟨c.name⟩

/-- The settings of a breaker, from the settings given (`none` where not given). -/
def Config.make (name : Option Json) (failure success recovery : Option Given)
    (policy : FailurePolicy := .standard) : Except Fault Config :=
  let failure := failure.getD (.num defaultFailureThreshold)
  let success := success.getD (.num defaultSuccessThreshold)
  let recovery := recovery.getD (.num defaultRecoveryTimeoutMs)
  let lead := "Circuit breaker '" ++ nameText name ++ "': "
  match failure.count?, success.count? with
  | none, _ =>
    .error (.configuration (lead ++ "failureThreshold must be an integer >= 1 (got " ++ failure.text ++ ")."))
  | _, none =>
    .error (.configuration (lead ++ "successThreshold must be an integer >= 1 (got " ++ success.text ++ ")."))
  | some ⟨f, hf⟩, some ⟨s, hs⟩ =>
    if !recovery.isDuration then
      .error (.configuration (lead ++ "recoveryTimeoutMs must be a non-negative number (got " ++ recovery.text ++ ")."))
    else .ok ⟨name, f, s, recovery.value, policy, hf, hs⟩

/-- Settings for model backends: trip after 3 failures, close after 2 successes,
wait a minute. -/
def Config.forModel (name : Option Json) : Except Fault Config :=
  Config.make (some (name.getD (Json.ofString "llm"))) (some (.num 3)) (some (.num 2)) (some (.num 60000))

/-- Settings for external services: trip after 5 failures, close after 3 successes,
wait 30 s. -/
def Config.forService (name : Option Json) : Except Fault Config :=
  Config.make (some (name.getD (Json.ofString "api"))) (some (.num 5)) (some (.num 3)) (some (.num 30000))

end LaneGate.Breaker
