import LaneGate.Wire.Breaker
import LaneGate.Answer.Service
/-!
# Answers as JSON

The JSON shapes of answers: citations, the answer to a question with its route and
telemetry (a missing token count is `null`), and the tally of questions answered.
-/

namespace LaneGate.Wire

/-- A citation as JSON. -/
def citationJson (c : Prompt.Citation) : Json :=
  .obj [("chunkId", c.chunkId), ("source", c.source), ("preview", .str c.preview)]

/-- An answer as JSON. -/
def answerJson (a : Answer) : Json :=
  .obj [("answer", .str a.text), ("citations", .arr (a.citations.map citationJson)),
    ("route", .obj [("lane", Json.ofString a.lane.name), ("provider", Json.ofString a.provider),
      ("fallbackUsed", .bool a.fallbackUsed)]),
    ("telemetry", .obj [("latencyMs", .num a.latencyMs),
      ("tokenEstimate", Json.ofOption .num a.tokenEstimate),
      ("charEstimate", Json.ofNat a.charEstimate)])]

/-- The tally as JSON. -/
def tallyJson (t : Tally) : Json :=
  .obj [("totalRequests", Json.ofNat t.totalRequests),
    ("outcomes", .obj [("ok", Json.ofNat t.ok), ("fallback", Json.ofNat t.fallback),
      ("error", Json.ofNat t.error), ("circuit_open", Json.ofNat t.circuitOpen)]),
    ("byLane", .obj [("on_device_rag", Json.ofNat t.onDevice), ("cloud_direct", Json.ofNat t.cloud)]),
    ("avgLatencyMs", .num t.avgLatencyMs)]

end LaneGate.Wire
