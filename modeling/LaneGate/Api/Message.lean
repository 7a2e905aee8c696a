import LaneGate.Json.Value
import LaneGate.Fault
import LaneGate.Redact
import LaneGate.Wire.Breaker
/-!
# Requests, responses and envelopes

A request to the control plane carries its method, its target (path and query),
its content type, its body text (none when nothing is sent) and its signature
header. A response is a status with a JSON body.

Every body is an envelope: `ok`, then `data` (on success) or `error` (on failure),
the request's correlation id when one was assigned, and the time it was written.
An error text is cleaned of secrets (`Redact.scrub`) before it is sent.

Faults map to statuses by their kind: a lookup fault is 404, an input or a
configuration fault 400, and everything else 500. The text of an input fault is its
message followed by its hints, one blank before each; a mapped text is cleaned once
when mapped and once more when sent.

Correlation ids have the shape of a random UUID (`8-4-4-4-12` hex digits); the
`n`-th id handed out is the one whose last group is `n` in hex.
-/

namespace LaneGate.Api

/-- A request as it arrives. -/
structure Request where
  /-- The method, in capitals. -/
  method : String
  /-- The path, followed by its query if it has one. -/
  target : String
  /-- The Content-Type header. -/
  contentType : Option String := none
  /-- The body text, when a body is sent. -/
  body : Option String := none
  /-- The X-Signature header. -/
  signature : Option String := none

/-- A response: a status and a JSON body. -/
structure Response where
  /-- The status code. -/
  status : Nat
  /-- The envelope. -/
  body : Json

/-- A lowercase hex digit. -/
def hexDigit (n : Nat) : Char := if n < 10 then Char.ofNat (48 + n) else Char.ofNat (87 + n)

/-- `n` in lowercase hex, padded with zeros to `width` digits (the low digits kept). -/
def hexPadded (width n : Nat) : String :=
  String.ofList ((List.range width).reverse.map fun i => hexDigit (n / Nat.pow 16 i % 16))

/-- The `n`-th correlation id. -/
def correlationId (n : Nat) : String := "00000000-0000-4000-8000-" ++ hexPadded 12 n

/-- Whether a text has the shape of a correlation id: groups of 8, 4, 4, 4 and 12
hex digits (either case) joined by dashes. -/
def isCorrelationId (s : String) : Bool :=
  let groups := s.splitOn "-"
  groups.map String.length == [8, 4, 4, 4, 12] &&
    groups.all fun g => g.toList.all fun c => c.isDigit || ('a' ≤ c && c ≤ 'f') || ('A' ≤ c && c ≤ 'F')

/-- The correlation member of an envelope, when an id was assigned. -/
def correlationMember (id : Option String) : List (String × Json) :=
  match id with
  | some i => [("correlationId", Json.ofString i)]
  | none => []

/-- A success envelope. -/
def success (status : Nat) (data : Json) (id : Option String) (time : Float) : Response :=
  ⟨status, .obj ([("ok", .bool true), ("data", data)] ++ correlationMember id ++
    [("timestamp", Wire.instantAt time)])⟩

/-- A failure envelope; the text is cleaned of secrets. -/
def failure (secrets : List Text) (status : Nat) (message : Text) (id : Option String) (time : Float) :
    Response :=
  ⟨status, .obj ([("ok", .bool false), ("error", .str (Redact.scrub secrets message))] ++
    correlationMember id ++ [("timestamp", Wire.instantAt time)])⟩

/-- The status of a fault. -/
def statusOf : Fault → Nat
  | .notFound .. => 404
  | .inputValidation .. => 400
  | .configuration _ => 400
  | _ => 500

/-- The text of a fault as a response reports it: an input fault with its hints. -/
def reportedText : Fault → Text
  | .inputValidation m hints =>
    Text.ofString (if hints.isEmpty then m else m ++ " " ++ " ".intercalate hints)
  | f => f.message

/-- The failure envelope of a fault: its status, and its text cleaned when mapped
(and again when sent). -/
def faultResponse (secrets : List Text) (f : Fault) (id : Option String) (time : Float) : Response :=
  failure secrets (statusOf f) (Redact.scrub secrets (reportedText f)) id time

end LaneGate.Api
