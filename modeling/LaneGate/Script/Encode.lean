import LaneGate.Json.Value
import LaneGate.Fault
import LaneGate.Clock
import LaneGate.Wire.Breaker
import LaneGate.Wire.Routing
/-!
# Writing answers

How a script reports a result: a value as `{"value": v}`, and a fault as an error
object (its kind, message and the fields of the kind). The values themselves are
written in the shapes of the wire modules.
-/

namespace LaneGate.Script

open Wire

/-- A fault as an error object: `error` (the kind), `message` and the fields that
belong to the kind. A malformed text and a value of the wrong type show their kind
only. -/
def faultJson : Fault → Json
  | .malformed => .obj [("error", Json.ofString "SyntaxError")]
  | .wrongType => .obj [("error", Json.ofString "TypeError")]
  | f =>
    let base := [("error", Json.ofString f.name), ("message", Json.str f.message)]
    let extra : List (String × Json) := match f with
      | .transientBackend p _ s => [("provider", p), ("status", s)]
      | .callTimeout _ ms => [("timeoutMs", ms)]
      | .providerUnavailable p _ => [("provider", p)]
      | .laneCallFailed n cause => [("attempts", Json.ofNat n), ("cause", faultJson cause)]
      | .inputValidation _ hints => [("hints", Json.ofStrings hints)]
      | .notFound r k => [("resource", r)] ++ k.field "key"
      | .circuitOpen b ms => b.field "breakerName" ++ [("remainingMs", ms)]
      | _ => []
    .obj (base ++ extra)

/-- The members of an object with extra members added (replacing same-named ones). -/
def withMembers (j : Json) (extra : List (String × Json)) : Json :=
  extra.foldl (fun acc (k, v) => acc.set k v) j

/-- A value, or the error object in its place. -/
def resultValue : Except Fault Json → Json
  | .ok v => v
  | .error f => faultJson f

/-- A result: `{"value": v}` or the error object. -/
def resultJson : Except Fault Json → Json
  | .ok v => .obj [("value", v)]
  | .error f => faultJson f

end LaneGate.Script
