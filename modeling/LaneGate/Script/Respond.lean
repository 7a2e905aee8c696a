import LaneGate.Script.Pure
import LaneGate.Script.Breakers
import LaneGate.Script.Routing
import LaneGate.Script.Store
import LaneGate.Script.Calls
import LaneGate.Script.Backends
import LaneGate.Script.Service
import LaneGate.Script.Runtime
import LaneGate.Script.Http
/-!
# Answering a request

A request names its operation in `op`. The answer is `{"ok": result}`, or the
error object of the fault the operation ended with. Numbers that JSON cannot hold
are written as `{"$num": "NaN"}` (or `Infinity`, `-Infinity`).
-/

namespace LaneGate.Script

mutual
/-- A value with its non-finite numbers written as marker objects. -/
def markNumbers : Json → Json
  | .num x =>
    if x.isNaN then .obj [("$num", Json.ofString "NaN")]
    else if x.isInf then .obj [("$num", Json.ofString (if x > 0 then "Infinity" else "-Infinity"))]
    else .num x
  | .arr xs => .arr (markNumbersItems xs)
  | .obj ms => .obj (markNumbersMembers ms)
  | j => j

/-- Array items with their non-finite numbers marked. -/
def markNumbersItems : List Json → List Json
  | [] => []
  | x :: xs => markNumbers x :: markNumbersItems xs

/-- Object members with their non-finite numbers marked. -/
def markNumbersMembers : List (String × Json) → List (String × Json)
  | [] => []
  | (k, v) :: ms => (k, markNumbers v) :: markNumbersMembers ms
end

/-- The result of an operation, if `op` names one. -/
def run (op : String) (req : Json) : Option (Except Fault Json) :=
  match runPure op req with
  | some r => some r
  | none =>
    match op with
    | "breaker" => some (runBreaker req)
    | "breaker_registry" => some (runRegistry req)
    | "load_balancer" => some (runBalancer req)
    | "cost" => some (runLedger req)
    | "router" => some (runRouter req)
    | "db" => some (runTables req)
    | "runbook" => some (runRunbooks req)
    | "retry" => some (runRetry req)
    | "sleep" => some (.ok (Json.ofString "resolved"))
    | "timeout" => some (runTimed req)
    | "llm" => some (runBackend req)
    | "orchestrator" => some (runService req)
    | "runtime" => some (runRuntime req)
    | "http" => some (runHttp req)
    | _ => none

/-- The answer to a request. -/
def respond (req : Json) : Json :=
  let op := strD req "op" ""
  let answer := match run op req with
    | some (.ok v) => .obj [("ok", v)]
    | some (.error f) => faultJson f
    | none => .obj [("error", Json.ofString "driver"), ("message", Json.ofString ("unknown op: " ++ op))]
  markNumbers answer

end LaneGate.Script
