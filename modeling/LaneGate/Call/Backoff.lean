import LaneGate.Decimal.Format
import LaneGate.Decimal.Power
/-!
# Backoff

The wait before retry `i` (0 after the first failure) is `base · 2^i`, capped at the
maximum and never below zero. The arithmetic is that of doubles (the power is
`Decimal.power`): a NaN anywhere gives NaN, and `0 · ∞` is NaN.
-/

namespace LaneGate

/-- The wait before retry `retryIndex`, in ms. -/
def backoffMs (retryIndex baseDelayMs maxDelayMs : Float) : Float :=
  Decimal.maxOf 0 (Decimal.minOf (baseDelayMs * Decimal.power 2 retryIndex) maxDelayMs)

end LaneGate
