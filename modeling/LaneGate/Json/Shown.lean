import LaneGate.Json.Value
import LaneGate.Decimal.Format
/-!
# Values put into text

When the service puts a value into a message or a prompt, the value shows as a
text: a number in its shortest form, a string as itself, `null`, `true` and
`false` by name, an array as its items' texts joined by commas (a `null` item
showing as nothing), and an object as `[object Object]`.
-/

namespace LaneGate.Json

mutual
/-- The text a value shows. -/
def shown : Json → String
  | .null => "null"
  | .bool b => if b then "true" else "false"
  | .num x => Decimal.numberText x
  | .str s => s.toString
  | .arr xs => ",".intercalate (shownItems xs)
  | .obj _ => "[object Object]"

/-- The texts array items show; `null` items show as nothing. -/
def shownItems : List Json → List String
  | [] => []
  | .null :: xs => "" :: shownItems xs
  | x :: xs => shown x :: shownItems xs
end

end LaneGate.Json
