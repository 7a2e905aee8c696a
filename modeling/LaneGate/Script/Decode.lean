import LaneGate.Json.Value
import LaneGate.Json.Writer
import LaneGate.Json.Shown
import LaneGate.Fault
import LaneGate.Breaker.Config
import LaneGate.Routing.Provider
import LaneGate.Redact
import LaneGate.Decimal.Parse
/-!
# Reading scripts

A script is a JSON request that drives one part of the service on a fake clock.
Wherever a number is expected a script may write `{"$num": "NaN"}` (or `Infinity`,
`-Infinity`, `-0`); `withNumbers` replaces every such object by its number.

Faults that scripted collaborators throw are written as specs
`{"kind", "message"?, ...}`; `faultOfSpec` builds them with the documented defaults.
A value's text is `Json.shown`. A value's number (`numberOf`) is what
arithmetic makes of it: `null` and `false` are zero, `true` is one, a text is read
as a numeric literal, an array through its text, and an object is not a number.
A value is truthy (`Json.truthy`) unless it is `null`, `false`, zero, not-a-number or
the empty text.
-/

namespace LaneGate.Script

/-- The number a `$num` name stands for. -/
def specialNumber (name : String) : Option Float :=
  match name with
  | "NaN" => some Decimal.notANumber
  | "Infinity" => some Decimal.infinity
  | "-Infinity" => some (-Decimal.infinity)
  | "-0" => some Decimal.negZero
  | _ => none

mutual
/-- The value with every `{"$num": name}` object replaced by its number. -/
def withNumbers : Json → Json
  | .obj [("$num", .str t)] =>
    match specialNumber t.toString with
    | some x => .num x
    | none => .obj [("$num", .str t)]
  | .obj ms => .obj (withNumbersMembers ms)
  | .arr xs => .arr (withNumbersItems xs)
  | j => j

/-- `withNumbers` on the items of an array. -/
def withNumbersItems : List Json → List Json
  | [] => []
  | x :: xs => withNumbers x :: withNumbersItems xs

/-- `withNumbers` on the members of an object. -/
def withNumbersMembers : List (String × Json) → List (String × Json)
  | [] => []
  | (k, v) :: ms => (k, withNumbers v) :: withNumbersMembers ms
end

/-- A member's value unless it is missing or `null`. -/
def field? (j : Json) (key : String) : Option Json :=
  match j.get? key with
  | some .null => none
  | other => other

/-- A member that falls back to a default when missing or `null`. -/
def givenOr (o : Json) (key : String) (dflt : Json) : Json := (field? o key).getD dflt

/-- A member that falls back to a default only when missing. -/
def presentOr (o : Json) (key : String) (dflt : Json) : Json := (o.get? key).getD dflt

/-- A string member, or a default. -/
def strD (j : Json) (key : String) (dflt : String) : String :=
  match field? j key with
  | some v => Json.shown v
  | none => dflt

/-- A number member, or a default. -/
def numD (j : Json) (key : String) (dflt : Float) : Float :=
  match field? j key with
  | some (.num x) => x
  | _ => dflt

/-- A number member. -/
def num? (j : Json) (key : String) : Option Float :=
  match field? j key with
  | some (.num x) => some x
  | _ => none

/-- Whether a member counts as true in a condition (a missing one does not). -/
def flag (j : Json) (key : String) : Bool := (j.get? key).any Json.truthy

/-- An array member's items (none when missing or not an array). -/
def items (j : Json) (key : String) : List Json :=
  match j.get? key with
  | some (.arr xs) => xs
  | _ => []

/-- An array member's items as texts. -/
def texts (j : Json) (key : String) : List String := (items j key).map Json.shown

/-- The source and passages of a runbook to ingest. The source must be text; a blank
source is refused by the ingest itself before any passage is looked at, so the
passages are read only after a source that is not blank, and each must be text. -/
def runbookOf (j : Json) : Except Fault (String × List String) := do
  let source ← match j.get? "source" with
    | some (.str t) => pure t.toString
    | _ => throw .wrongType
  if (Text.trim source).isEmpty then return (source, [])
  match j.get? "chunks" with
  | some (.arr xs) =>
    let passages ← xs.mapM fun
      | .str t => pure t.toString
      | _ => throw .wrongType
    return (source, passages)
  | _ => throw .wrongType

/-- The question and source hint of a question step. The question must be text;
a blank question is refused by the service before the hint is looked at, so the
hint is read only after a question that is not blank, and must then be text or
absent (null counts as absent). -/
def questionOf (j : Json) : Except Fault (String × Option String) := do
  let question ← match j.get? "question" with
    | some (.str t) => pure t.toString
    | _ => throw .wrongType
  if (Text.trim question).isEmpty then return (question, none)
  match field? j "source" with
  | none => return (question, none)
  | some (.str t) => return (question, some t.toString)
  | some _ => throw .wrongType

/-- How many times a step repeats: the whole numbers from zero that stay below its
count `n` (a count that is not set, or null, is `dflt`). A count that is
not a finite number repeats nothing. -/
def repeats (step : Json) (dflt : Nat) : Nat :=
  match field? step "n" with
  | none => dflt
  | some v =>
    let x := (Primitive.ofJson v).toNumber
    if x.isNaN || x.isInf || x ≤ 0 then 0 else x.ceil.toUInt64.toNat

/-- The number a value stands for in arithmetic. -/
def numberOf : Json → Float
  | .null => 0
  | .bool b => if b then 1 else 0
  | .num x => x
  | .str s => Decimal.ofText s.toString
  | .arr xs => Decimal.ofText (Json.shown (.arr xs))
  | .obj _ => Decimal.notANumber

/-- A member as a number, or a default when it is missing. -/
def numberD (j : Json) (key : String) (dflt : Float) : Float :=
  match j.get? key with
  | some v => numberOf v
  | none => dflt

/-- The fault that a spec describes. -/
def faultOfSpec (spec : Json) : Fault :=
  let msg := strD spec "message" "boom"
  match strD spec "kind" "Error" with
  | "TransientBackendError" =>
    .transientBackend (givenOr spec "provider" (Json.ofString "p")) (Text.ofString msg)
      (givenOr spec "status" .null)
  | "CallTimeoutError" =>
    .callTimeout (givenOr spec "label" (Json.ofString "op")) (givenOr spec "timeoutMs" (.num 1000))
  | "ProviderUnavailableError" =>
    .providerUnavailable (givenOr spec "provider" (Json.ofString "p")) (Text.ofString msg)
  | "InputValidationError" => .inputValidation msg (texts spec "hints")
  | "ConfigurationError" => .configuration msg
  | "NotFoundError" =>
    .notFound (givenOr spec "resource" (Json.ofString "Thing")) ⟨some (givenOr spec "key" (Json.ofString "x"))⟩
  | "CircuitOpenError" =>
    .circuitOpen ⟨some (givenOr spec "breakerName" (Json.ofString "b"))⟩ (givenOr spec "remainingMs" (.num 0))
  | "string" => .thrown (Text.ofString msg)
  | _ => .plain (Text.ofString msg)

/-- Every scripted fault has a text. -/
theorem faultOfSpec_hasText (spec : Json) : (faultOfSpec spec).hasText = true := by
  unfold faultOfSpec
  split <;> rfl

/-- A setting as given: absent or `null` is not given. -/
def givenOf (j : Json) (key : String) : Option Given :=
  match field? j key with
  | some (.num x) => some (.num x)
  | some v => some (.other (Json.shown v))
  | none => none

/-- The kind of a fault as a script names it: its name, or `string` for a thrown
value that is not an error. -/
def kindOf (f : Fault) : String :=
  if f.isError then f.name else "string"

/-- The failure policy of a breaker settings object: only the faults of the kinds in
`countOnly`, every fault but those of the kinds in `ignore`, else the default. -/
def policyOf (j : Json) : Breaker.FailurePolicy :=
  match j.get? "countOnly", j.get? "ignore" with
  | some (.arr ks), _ => ⟨fun f => (ks.map Json.shown).contains (kindOf f)⟩
  | _, some (.arr ks) => ⟨fun f => !(ks.map Json.shown).contains (kindOf f)⟩
  | _, _ => .standard

/-- The settings of a breaker from a settings object. -/
def breakerConfigOf (name : Option Json) (j : Json) : Except Fault Breaker.Config :=
  Breaker.Config.make name (givenOf j "failureThreshold") (givenOf j "successThreshold")
    (givenOf j "recoveryTimeoutMs") (policyOf j)

/-- A provider description from its JSON object; a member that is missing or `null`
is not set (the model apart, which is kept when it is `null`). -/
def providerInputOf (j : Json) : ProviderInput :=
  { name := (j.get? "name").getD .null
    kind := (j.get? "kind").getD (Json.ofString "undefined")
    model := j.get? "model"
    priority := givenOf j "priority"
    weight := givenOf j "weight"
    costPer1kTokens := givenOf j "costPer1kTokens"
    avgLatencyMs := givenOf j "avgLatencyMs"
    maxTokens := field? j "maxTokens"
    capabilities := field? j "capabilities"
    enabled := field? j "enabled"
    rateLimitRpm := givenOf j "rateLimitRpm"
    currentRpm := field? j "currentRpm"
    circuitBreakerName := field? j "circuitBreakerName"
    successRate := field? j "successRate"
    lastUsedAt := field? j "lastUsedAt" }

/-- The secret values of a script's `env` map. -/
def secretsOf (req : Json) : List Text :=
  let env := req.getD "env"
  Redact.secretValues fun k => (field? env k).map Json.shown

end LaneGate.Script
