import LaneGate.Decimal.Format
/-!
# Settings as given

Settings arrive from callers and files as loosely typed values. A setting that must
be a number is checked where it is used, and a bad one is reported with its text as
given, so the value keeps that text.
-/

namespace LaneGate

/-- A setting as given by a caller: a number, or a value of another kind together
with its text. -/
inductive Given where
  /-- A number. -/
  | num (x : Float)
  /-- Something else, with its text. -/
  | other (text : String)

namespace Given

/-- The text of a given setting. -/
def text : Given → String
  | .num x => Decimal.numberText x
  | .other t => t

/-- Whether a setting is a whole number of at least one. -/
def isCount : Given → Bool
  | .num x => Decimal.isFinite x && x == Decimal.floorOf x && x ≥ 1
  | .other _ => false

/-- Whether a setting is a finite number of at least zero. -/
def isDuration : Given → Bool
  | .num x => Decimal.isFinite x && x ≥ 0
  | .other _ => false

/-- The number of a setting (zero for one that is not a number). -/
def value : Given → Float
  | .num x => x
  | .other _ => 0

/-- The count a setting stands for, when it is a whole number of at least one: its
value exactly, as a natural number. -/
def count? (g : Given) : Option {n : Nat // 0 < n} :=
  if g.isCount then
    let n := (Decimal.wholePart g.value).toNat
    if h : 0 < n then some ⟨n, h⟩ else none
  else none

end Given

end LaneGate
