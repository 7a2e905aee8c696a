import LaneGate.Breaker.Config
import LaneGate.Proofs.Decimal.Fields
/-!
# Breaker settings that pass their checks

`Config.make` checks the settings it is given in a fixed order and refuses the first
bad one with a configuration fault. A threshold passes when it is a whole number of
at least one (`Given.isCount`), and the waiting time when it is a finite number of
at least zero (`Given.isDuration`); a setting that is missing takes its default
first.

A threshold is kept as the count it stands for (`Given.count?`), which exists exactly
for the settings that pass (`Given.count?_isSome`): a double that is a whole number of
at least one has a whole part of at least one (`Decimal.one_le_wholePart`).

Main statement: `Config.make_ok_iff` — the settings are built exactly when all three
pass (`Config.Passes`), and then carry the name and the policy as given; every other
outcome is a configuration fault (`Config.make_error`).
-/

namespace LaneGate

namespace Given

/-- A setting that passes as a count is a number. -/
theorem num_of_isCount {g : Given} (h : g.isCount = true) : ∃ x, g = .num x := by
  cases g with
  | num x => exact ⟨x, rfl⟩
  | other t => simp [isCount] at h

/-- A whole number of at least one stands for a positive count. -/
theorem count?_isSome (g : Given) : (g.count?).isSome = g.isCount := by
  unfold count?
  by_cases h : g.isCount = true
  · obtain ⟨x, rfl⟩ := num_of_isCount h
    have hfin : Decimal.isFinite x = true := by
      simp only [isCount, Bool.and_eq_true] at h
      exact h.1.1
    have hone : (1 : Float) ≤ x := by
      simp only [isCount, Bool.and_eq_true, decide_eq_true_eq] at h
      exact h.2
    have hpos : 0 < (Decimal.wholePart x).toNat := by
      have := Decimal.one_le_wholePart hfin hone
      omega
    rw [if_pos h]
    dsimp only [value]
    rw [dif_pos hpos, h]
    rfl
  · simp only [Bool.not_eq_true] at h
    simp only [h, Bool.false_eq_true, if_false, Option.isSome_none]

theorem count?_eq_none_iff (g : Given) : g.count? = none ↔ g.isCount = false := by
  rw [← count?_isSome]
  cases g.count? <;> simp

end Given

namespace Breaker.Config

/-- Whether settings as given pass the checks of `make`: each threshold (its default
when missing) is a whole number of at least one, and the waiting time a finite
number of at least zero. -/
def Passes (failure success recovery : Option Given) : Prop :=
  (failure.getD (.num defaultFailureThreshold)).isCount = true ∧
    (success.getD (.num defaultSuccessThreshold)).isCount = true ∧
    (recovery.getD (.num defaultRecoveryTimeoutMs)).isDuration = true

instance (failure success recovery : Option Given) : Decidable (Passes failure success recovery) :=
  inferInstanceAs (Decidable (_ ∧ _ ∧ _))

variable {name : Option Json} {failure success recovery : Option Given} {policy : FailurePolicy}

/-- The settings are built exactly when they pass, with the name and policy given. -/
theorem make_ok_iff :
    (∃ c, make name failure success recovery policy = .ok c) ↔ Passes failure success recovery := by
  unfold make Passes
  generalize failure.getD (.num defaultFailureThreshold) = f
  generalize success.getD (.num defaultSuccessThreshold) = s
  generalize recovery.getD (.num defaultRecoveryTimeoutMs) = r
  dsimp only
  rcases hf : f.count? with _ | ⟨fn, hfn⟩
  · -- the failure threshold is refused first
    simp [(Given.count?_eq_none_iff f).1 hf]
  · have hf' : f.isCount = true := by rw [← Given.count?_isSome, hf]; rfl
    rcases hs : s.count? with _ | ⟨sn, hsn⟩
    · simp [hf', (Given.count?_eq_none_iff s).1 hs]
    · have hs' : s.isCount = true := by rw [← Given.count?_isSome, hs]; rfl
      by_cases hr : r.isDuration = true <;> simp [hf', hs', hr]

/-- Settings that do not pass are refused with a configuration fault. -/
theorem make_error {f : Fault} (h : make name failure success recovery policy = .error f) :
    ∃ message, f = .configuration message := by
  unfold make at h
  dsimp only at h
  split at h
  · cases h; exact ⟨_, rfl⟩
  · cases h; exact ⟨_, rfl⟩
  · split at h
    · cases h; exact ⟨_, rfl⟩
    · cases h

/-- Built settings carry the name and the policy given. -/
theorem make_ok {c : Config} (h : make name failure success recovery policy = .ok c) :
    c.name = name ∧ c.policy = policy := by
  unfold make at h
  dsimp only at h
  split at h
  · cases h
  · cases h
  · split at h
    · cases h
    · cases h; exact ⟨rfl, rfl⟩

end Breaker.Config

end LaneGate
