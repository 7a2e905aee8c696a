import LaneGate.Text.Units
import LaneGate.Text.Blank
import LaneGate.Text.Case
import LaneGate.Answer.Lane
/-!
# The confidence gate

Before a model answer is returned it passes a fixed gate. Its checks, in order, on
the answer trimmed and lowered: it is empty; it is shorter (in UTF-16 units) than
the minimum; it contains an uncertainty marker; on the grounded lane, it comes with
no citation. The first check that holds is the reason the answer is not trusted.
-/

namespace LaneGate.Confidence

/-- Phrases that show a model is unsure of its answer. -/
def defaultMarkers : List String :=
  ["i don't know", "not sure", "can't", "cannot", "unknown", "모르", "확신", "알 수 없",
    "불확실", "わかりません", "不确定", "不知道"]

/-- The least length of a trusted answer, by default. -/
def defaultMinAnswerChars : Float := 60

/-- Why an answer is not trusted. -/
inductive Reason where
  /-- Nothing but blanks. -/
  | empty
  /-- Shorter than the minimum. -/
  | tooShort
  /-- It says it is unsure. -/
  | uncertaintyMarker
  /-- A grounded answer with nothing cited. -/
  | noCitations
  deriving DecidableEq, Repr

/-- The name of a reason. -/
def Reason.name : Reason → String
  | .empty => "empty"
  | .tooShort => "too_short"
  | .uncertaintyMarker => "uncertainty_marker"
  | .noCitations => "no_citations"

/-- The gate's settings. Markers are kept lowered. -/
structure Policy where
  /-- The least length of a trusted answer. -/
  minAnswerChars : Float
  /-- The uncertainty markers, lowered. -/
  markers : List String

/-- A gate with the given minimum and markers (the markers are lowered here). -/
def Policy.make (minAnswerChars : Float := defaultMinAnswerChars)
    (markers : List String := defaultMarkers) : Policy :=
  ⟨minAnswerChars, markers.map Text.lower⟩

/-- Why an answer's text is not trusted, or `none` when it passes the checks on
the text (all but the citation check). Markers are looked for unit by unit. -/
def Policy.textReason (p : Policy) (answer : String) : Option Reason :=
  let text := Text.lower (Text.trim answer)
  if text.isEmpty then some .empty
  else if (Text.lengthOf text).toFloat < p.minAnswerChars then some .tooShort
  else if p.markers.any (fun m => Text.occursIn (Text.ofString m).units (Text.ofString text).units) then
    some .uncertaintyMarker
  else none

/-- Why an answer is not trusted, or `none` when it passes. -/
def Policy.evaluate (p : Policy) (answer : String) (citations : Nat) (lane : Option Lane) :
    Option Reason :=
  match p.textReason answer with
  | some r => some r
  | none => if lane == some .onDeviceRag && citations == 0 then some .noCitations else none

end LaneGate.Confidence
