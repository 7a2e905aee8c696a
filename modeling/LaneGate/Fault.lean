import LaneGate.Decimal.Format
import LaneGate.Text.Units
import LaneGate.Json.Value
import LaneGate.Json.Primitive
import LaneGate.Json.Key
/-!
# Faults

Everything that can go wrong in the service, as causes. Operational faults (an open
circuit, a failing or slow backend) are absorbed by the answering pipeline;
configuration, input and lookup faults reach the caller.

`Fault.name` is the kind of a fault as callers see it, `Fault.message` its text.
A value that is thrown without being an error (`thrown`) has its own text as message.
A thrown value may also have no text at all (`textless`: an object made without a
prototype, whose conversion to a string throws); where the code writes a fault's text
into a log line (`Fault.describe`, the code's `errorMessage`), such a value fails with
a `TypeError` instead.

The details a fault carries (a provider, a status, a label, a time) are kept as the
values they were given: a message puts them in as their text (`Json.shown`), and a
time in a message is first made a number.
-/

namespace LaneGate

/-- A failure, by cause. -/
inductive Fault where
  /-- A plain error with a message. -/
  | plain (message : Text)
  /-- A backend call failed in a way worth retrying: the network, a 429 or a 5xx.
  The provider is the backend's name as it was given. -/
  | transientBackend (provider : Json) (message : Text) (status : Json)
  /-- A call ran past its time limit: what was called, and the limit in ms. -/
  | callTimeout (label : Json) (timeoutMs : Json)
  /-- A backend cannot be used at all (no credential, a refusing answer). The
  provider is the backend's name as it was given. -/
  | providerUnavailable (provider : Json) (message : Text)
  /-- A model call failed on every attempt; `cause` is the last failure. -/
  | laneCallFailed (attempts : Nat) (cause : Fault)
  /-- A setting or a request is not usable, with no safe default. -/
  | configuration (message : String)
  /-- Caller input was rejected, with hints for the caller. -/
  | inputValidation (message : String) (hints : List String)
  /-- A named thing does not exist: its kind, and the name it was looked up by. -/
  | notFound (resource : Json) (key : Key)
  /-- A circuit breaker refused the call: its name and the time left, in ms. -/
  | circuitOpen (breaker : Key) (remainingMs : Json)
  /-- A text that should have been JSON was not, or a value had the wrong shape. -/
  | malformed
  /-- A request was cancelled through its signal. -/
  | aborted
  /-- A constraint of the database refused a write. -/
  | storage (message : String)
  /-- A time value outside the range of dates was written as a date. -/
  | invalidTime
  /-- Values handed to a statement did not match its placeholders. -/
  | outOfRange (message : String)
  /-- A value that is not an error was thrown; its text. -/
  | thrown (value : Text)
  /-- A value that is not an error and has no text was thrown: converting it to a
  string throws. -/
  | textless
  /-- A value of the wrong type was used: an operation of texts on something else, or
  a missing value read. -/
  | wrongType
  deriving Inhabited

namespace Fault

/-- The kind of a fault, as callers see it. -/
def name : Fault → String
  | .plain _ => "Error"
  | .transientBackend .. => "TransientBackendError"
  | .callTimeout .. => "CallTimeoutError"
  | .providerUnavailable .. => "ProviderUnavailableError"
  | .laneCallFailed .. => "LaneCallFailedError"
  | .configuration _ => "ConfigurationError"
  | .inputValidation .. => "InputValidationError"
  | .notFound .. => "NotFoundError"
  | .circuitOpen .. => "CircuitOpenError"
  | .malformed => "SyntaxError"
  | .aborted => "AbortError"
  | .storage _ => "SqliteError"
  | .invalidTime => "RangeError"
  | .outOfRange _ => "RangeError"
  | .thrown _ => "non_error"
  | .textless => "non_error"
  | .wrongType => "TypeError"

/-- The text of a fault; a value with no text has the empty one here (`describe` is
the conversion that fails on it). -/
def message : Fault → Text
  | .plain m => m
  | .transientBackend _ m _ => m
  | .callTimeout label ms => Text.ofString (Json.shown label ++ " timed out after " ++ Json.shown ms ++ "ms")
  | .providerUnavailable _ m => m
  | .laneCallFailed .. => Text.ofString "LLM call failed after retries"
  | .configuration m => Text.ofString m
  | .inputValidation m _ => Text.ofString m
  | .notFound resource key => Text.ofString (Json.shown resource ++ " '" ++ key.shown ++ "' not found")
  | .circuitOpen b ms =>
    Text.ofString ("Circuit breaker '" ++ b.shown ++ "' is OPEN. Recovery in " ++
      Decimal.fixedText ((Primitive.ofJson ms).toNumber / 1000) 1 ++ "s")
  | .malformed => Text.ofString "Unexpected token in JSON"
  | .aborted => Text.ofString "This operation was aborted"
  | .storage m => Text.ofString m
  | .invalidTime => Text.ofString "Invalid time value"
  | .outOfRange m => Text.ofString m
  | .thrown v => v
  | .textless => Text.ofString ""
  | .wrongType => Text.ofString "value of the wrong type"

/-- Whether the fault is an error object rather than a bare thrown value. -/
def isError : Fault → Bool
  | .thrown _ => false
  | .textless => false
  | _ => true

/-- Whether the fault has a text: every fault but a thrown value with none. -/
def hasText : Fault → Bool
  | .textless => false
  | _ => true

/-- The text of a fault as a log line takes it: an error's message, the text of any
other value. Converting a value that has no text fails with a `TypeError`. -/
def describe (f : Fault) : Except Fault Text :=
  if f.hasText then .ok f.message else .error .wrongType

@[simp] theorem describe_of_hasText {f : Fault} (h : f.hasText = true) : f.describe = .ok f.message := by
  simp [describe, h]

@[simp] theorem describe_textless : Fault.textless.describe = .error .wrongType := rfl

/-- Whether an outcome's fault, if it has one, has a text. -/
def textful {α : Type} : Except Fault α → Bool
  | .ok _ => true
  | .error f => f.hasText

@[simp] theorem textful_ok {α : Type} (a : α) : textful (.ok a : Except Fault α) = true := rfl

@[simp] theorem textful_error {α : Type} (f : Fault) : textful (.error f : Except Fault α) = f.hasText := rfl

@[simp] theorem textful_map {α β : Type} (g : α → β) (r : Except Fault α) : textful (r.map g) = textful r := by
  cases r <;> rfl

end Fault

end LaneGate
