import LaneGate.Text.Blank
import LaneGate.Text.Case
/-!
# Lanes

A question is answered on one of two lanes: the grounded on-device lane, which
retrieves runbook snippets and cites them, and the direct cloud lane. The grounded
lane is the default; a `cloud` or `cloud_direct` hint (blanks and case ignored)
moves a question to the cloud lane only while that lane is enabled.
-/

namespace LaneGate

/-- The two ways a question can be answered. -/
inductive Lane where
  /-- Retrieval over the runbooks, then a local model with a cited prompt. -/
  | onDeviceRag
  /-- The question goes straight to the remote model. -/
  | cloudDirect
  deriving DecidableEq, Repr, Inhabited

namespace Lane

/-- Both lanes, grounded lane first. -/
def all : List Lane := [.onDeviceRag, .cloudDirect]

/-- The name of a lane. -/
def name : Lane → String
  | .onDeviceRag => "on_device_rag"
  | .cloudDirect => "cloud_direct"

/-- The lane of a name. -/
def ofName? (s : String) : Option Lane := all.find? (·.name == s)

theorem ofName?_name (l : Lane) : ofName? l.name = some l := by
  cases l <;> rfl

end Lane

/-- What the lane policy is told: whether the cloud lane may be used, and the
provider that serves each lane. Providers are whatever the caller names them by. -/
structure LanePolicy (π : Type) where
  /-- Whether questions may go to the cloud lane. -/
  enableCloudLane : Bool
  /-- The provider of the grounded lane. -/
  onDeviceProvider : π
  /-- The provider of the cloud lane. -/
  cloudProvider : π
  deriving Repr

/-- The lane chosen for a question, its provider and why. -/
structure LaneDecision (π : Type) where
  /-- The chosen lane. -/
  lane : Lane
  /-- The provider that serves it. -/
  provider : π
  /-- Why this lane was chosen. -/
  reason : String
  deriving Repr

namespace LanePolicy

variable {π : Type}

/-- The provider that serves a lane. -/
def providerFor (p : LanePolicy π) : Lane → π
  | .cloudDirect => p.cloudProvider
  | .onDeviceRag => p.onDeviceProvider

/-- Whether a hint asks for the cloud lane. -/
def isCloudHint (hint : String) : Bool :=
  let h := Text.lower (Text.trim hint)
  h == "cloud" || h == "cloud_direct"

/-- The lane for a question with an optional hint. -/
def decide (p : LanePolicy π) (hint : Option String) : LaneDecision π :=
  if hint.any isCloudHint then
    if p.enableCloudLane then ⟨.cloudDirect, p.cloudProvider, "cloud hint"⟩
    else ⟨.onDeviceRag, p.onDeviceProvider, "cloud hint ignored: cloud lane disabled"⟩
  else ⟨.onDeviceRag, p.onDeviceProvider, "default lane"⟩

theorem decide_cloud_iff (p : LanePolicy π) (hint : Option String) :
    (p.decide hint).lane = .cloudDirect ↔ hint.any isCloudHint = true ∧ p.enableCloudLane = true := by
  unfold decide
  by_cases h : hint.any isCloudHint <;> by_cases e : p.enableCloudLane <;> simp [h, e]

/-- The decision's provider is the one that serves the chosen lane. -/
theorem decide_provider (p : LanePolicy π) (hint : Option String) :
    (p.decide hint).provider = p.providerFor (p.decide hint).lane := by
  unfold decide
  by_cases h : hint.any isCloudHint <;> by_cases e : p.enableCloudLane <;> simp [h, e, providerFor]

end LanePolicy

end LaneGate
