import LaneGate.Json.Shown
import LaneGate.Decimal.Parse
import LaneGate.Setting
/-!
# Values in arithmetic

Settings and samples reach the service as JSON values, not always numbers, and the
service adds and compares them as they are. For that a value is first made
primitive: an array or an object stands for its text (`Json.shown`), and a missing
value is `undefined`.

* A value is true in a condition (`Json.truthy`) unless it is `null`, `false`,
  zero, not-a-number or the empty text.
* A primitive's number: `undefined` is not a number, `null` and `false` are zero,
  `true` is one, a text is read as a numeric literal (`Decimal.ofText`).
* Adding two primitives joins their texts when either is a text, and adds their
  numbers otherwise.
* One primitive is below another when both are texts and the first comes first
  unit by unit, or else when the first's number is below the second's (never when
  either is not a number).
* A setting with a default takes it only when the value is missing or `null`
  (`numberOr`, `given`).
-/

namespace LaneGate

/-- Whether a value counts as true in a condition: all but `null`, `false`, zero,
not-a-number and the empty text (an empty array or object is true). -/
def Json.truthy : Json → Bool
  | .null => false
  | .bool b => b
  | .num x => !(x.isNaN || x == 0)
  | .str s => !s.units.isEmpty
  | _ => true

/-- A value made primitive. -/
inductive Primitive where
  /-- No value at all. -/
  | undefined
  /-- `null`. -/
  | null
  /-- A truth value. -/
  | bool (b : Bool)
  /-- A number. -/
  | num (x : Float)
  /-- A text. -/
  | str (t : Text)

namespace Primitive

/-- A JSON value made primitive. -/
def ofJson : Json → Primitive
  | .null => .null
  | .bool b => .bool b
  | .num x => .num x
  | .str t => .str t
  | .arr xs => .str (Text.ofString (Json.shown (.arr xs)))
  | .obj ms => .str (Text.ofString (Json.shown (.obj ms)))

/-- A value that may be missing, made primitive. -/
def ofOption : Option Json → Primitive
  | some j => ofJson j
  | none => .undefined

/-- The number of a primitive. -/
def toNumber : Primitive → Float
  | .undefined => Decimal.notANumber
  | .null => 0
  | .bool b => if b then 1 else 0
  | .num x => x
  | .str t => Decimal.ofText t.toString

/-- The text of a primitive. -/
def toText : Primitive → Text
  | .undefined => Text.ofString "undefined"
  | .null => Text.ofString "null"
  | .bool b => Text.ofString (if b then "true" else "false")
  | .num x => Text.ofString (Decimal.numberText x)
  | .str t => t

/-- The sum of two primitives: joined texts when either is a text. -/
def add (a b : Primitive) : Primitive :=
  match a, b with
  | .str s, _ => .str (s ++ b.toText)
  | _, .str t => .str (a.toText ++ t)
  | _, _ => .num (a.toNumber + b.toNumber)

/-- Whether a list of units comes strictly before another, unit by unit. -/
def unitsBefore : List UInt16 → List UInt16 → Bool
  | [], [] => false
  | [], _ :: _ => true
  | _ :: _, [] => false
  | u :: us, v :: vs => if u < v then true else if v < u then false else unitsBefore us vs

/-- Whether one primitive is below another. -/
def lessThan (a b : Primitive) : Bool :=
  match a, b with
  | .str s, .str t => unitsBefore s.units t.units
  | _, _ => a.toNumber < b.toNumber

/-- Whether one primitive is at most another: the reverse of `lessThan` with the
two swapped, except that a comparison of numbers involving not-a-number is false. -/
def atMost (a b : Primitive) : Bool :=
  match a, b with
  | .str s, .str t => !unitsBefore t.units s.units
  | _, _ => a.toNumber ≤ b.toNumber

/-- The JSON of a primitive; `undefined` has none and is written as null. -/
def toJson : Primitive → Json
  | .undefined | .null => .null
  | .bool b => .bool b
  | .num x => .num x
  | .str t => .str t

/-- The number of a setting, or a default when it is missing or `null`. -/
def numberOr (p : Primitive) (dflt : Float) : Float :=
  match p with
  | .undefined | .null => dflt
  | _ => p.toNumber

/-- A primitive as a setting given: not given when missing or `null`, and otherwise
a number or a value with its text. -/
def given : Primitive → Option Given
  | .undefined | .null => none
  | .num x => some (.num x)
  | p => some (.other p.toText.toString)

end Primitive

end LaneGate
