import LaneGate.Backend.Model
import LaneGate.Call.Timer
/-!
# The model behind a lane

A lane hands its prompt to a model. The model is either a backend reached over the
network, or a list of prepared replies handed out one after another, the last one
repeated once the list is used up; prepared replies are how a service is exercised
without a network. A prepared reply says what the call gives (an answer or a fault),
how far the service clock moves while it is produced, and when it settles: at once,
after a delay, or never (it then ends only when the call is cancelled). Its fault is
an error or a string, as a scripted model throws them: never a value with no text.

A model that holds prepared replies keeps the prompts it hears; a backend keeps the
requests it sends instead.
-/

namespace LaneGate

open Backend

/-- One prepared reply. -/
structure Prepared where
  /-- The answer text, its token count and the name it answers under (the model's
  own when none), or the fault the call fails with. -/
  result : Except Fault (Text × Option Float × Option String)
  /-- How far the service clock moves when the reply is asked for, in ms. -/
  advanceMs : Float := 0
  /-- When the reply settles. -/
  settling : Settling := .immediately
  /-- A scripted model throws an error or a string, never a value with no text. -/
  textful : Fault.textful result = true := by rfl

/-- What answers a lane's prompts. -/
inductive Model where
  /-- Prepared replies under a name, handed out in order; the last one repeats. -/
  | prepared (name : String) (replies : List Prepared)
  /-- A backend, with what the network answers to every request it sends. -/
  | backend (b : Backend) (network : Reply)

/-- What one prompt drew from a model. -/
structure Drawn where
  /-- When the answer settles. -/
  settling : Settling
  /-- The answer, or the fault. -/
  result : Except Fault Generation
  /-- How far the service clock moved while asking, in ms. -/
  advanceMs : Float
  /-- The prompt, when the model keeps what it hears. -/
  heard : Option Text
  /-- The requests sent over the network. -/
  requests : List Request

namespace Model

/-- The name the model answers under. -/
def name : Model → String
  | .prepared n _ => n
  | .backend b _ => b.label

/-- The fault of a model with no reply prepared at all. -/
def noReply : Fault := .plain (Text.ofString "no reply prepared")

/-- The reply given after `used` earlier ones: the next one, or the last once the
list is used up. -/
def replyAt (replies : List Prepared) (used : Nat) : Option Prepared :=
  replies[min used (replies.length - 1)]?

/-- Asks a model for an answer to a prompt; `used` counts the replies it gave
before, and `secrets` are kept out of the faults it reports. -/
def ask (m : Model) (secrets : List Text) (used : Nat) (prompt : Text) : Drawn :=
  match m with
  | .prepared n replies =>
    match replyAt replies used with
    | none => ⟨.immediately, .error noReply, 0, some prompt, []⟩
    | some r =>
      let result := r.result.map fun (text, tokens, answeredBy) =>
        ⟨.str text, Json.ofString (answeredBy.getD n), tokens⟩
      ⟨r.settling, result, r.advanceMs, some prompt, []⟩
  | .backend b network =>
    let (requests, result) := b.generate secrets (some (.str prompt)) none (fun _ => network)
    ⟨.immediately, result, 0, none, requests⟩

end Model

end LaneGate
