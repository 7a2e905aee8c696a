import LaneGate.Api.Body
import LaneGate.Json.Order
import LaneGate.Crypto.Sha256
/-!
# Signed requests

A signed endpoint takes a request only when its `X-Signature` header is
`sha256=` followed by the HMAC-SHA256 of an accepted payload under the API secret,
as 64 hex digits (either case). The accepted payloads are, in order and without
repeats: the body text read (the empty text when none was), the request's value
written back as JSON, and the value's canonical text with sorted keys
(`Json.sortedText`). Keys and payloads are hashed as UTF-8, an unpaired surrogate as U+FFFD.

Checks go in order, and the first that fails decides the answer: no secret
configured (503), no header or one without the prefix (401), a digest that is not
64 hex digits (401), no accepted payload signed (403). A signature is always 64 hex
digits (`signatureOf_length`), so a well-formed digest is one that can match.
-/

namespace LaneGate.Api

/-- The prefix of a signature header. -/
def signaturePrefix : String := "sha256="

/-- The hex HMAC-SHA256 of a payload under a secret. -/
def signatureOf (secret payload : String) : String :=
  Sha256.hex (Sha256.hmac (Text.ofString secret).utf8 (Text.ofString payload).utf8)

/-- A signature is 64 hex digits. -/
theorem signatureOf_length (secret payload : String) : (signatureOf secret payload).length = 64 := by
  rw [signatureOf, Sha256.length_hex, Sha256.hmac, Sha256.length_hash]

/-- The payloads a signature may cover, in order, without repeats. -/
def payloads (b : Body) : List String :=
  let all := [b.raw.getD "", Json.orderedText b.value, Json.sortedText b.value]
  all.foldl (fun acc p => if acc.contains p then acc else acc ++ [p]) []

/-- How a signature check ends. -/
inductive Verdict where
  /-- No secret is configured. -/
  | unavailable
  /-- The header is missing or lacks the prefix. -/
  | missingHeader
  /-- The digest is not 64 hex digits. -/
  | malformedDigest
  /-- No accepted payload was signed. -/
  | mismatch
  /-- The request may go on. -/
  | accepted
  deriving DecidableEq

/-- Whether a character is a hex digit of either case. -/
def isHexChar (c : Char) : Bool := c.isDigit || ('a' ≤ c && c ≤ 'f') || ('A' ≤ c && c ≤ 'F')

/-- A hex digit lowered. -/
def lowerHex (c : Char) : Char := if 'A' ≤ c && c ≤ 'F' then Char.ofNat (c.toNat + 32) else c

/-- Checks a request's signature header against its body under a secret. -/
def verify (secret : String) (header : Option String) (b : Body) : Verdict :=
  if secret.isEmpty then .unavailable
  else
    match header with
    | none => .missingHeader
    | some h =>
      if !h.startsWith signaturePrefix then .missingHeader
      else
        let digest := (h.toList.drop signaturePrefix.length)
        if digest.length != 64 || !digest.all isHexChar then .malformedDigest
        else
          let given := String.ofList (digest.map lowerHex)
          if (payloads b).any (signatureOf secret · == given) then .accepted else .mismatch

/-- The status and text of a refusal. -/
def Verdict.refusal : Verdict → Option (Nat × String)
  | .unavailable => some (503, "Signed API endpoints are unavailable (missing API_SECRET).")
  | .missingHeader => some (401, "Missing or malformed X-Signature header.")
  | .malformedDigest => some (401, "Malformed signature digest.")
  | .mismatch => some (403, "Invalid signature.")
  | .accepted => none

end LaneGate.Api
