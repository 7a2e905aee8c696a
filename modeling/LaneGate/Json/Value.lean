import LaneGate.Text.Units
/-!
# JSON values

The values of the JSON data format as the service reads and writes them: numbers are
doubles, strings are UTF-16 texts, and an object keeps its members in the order they
were first set. Setting a key that is already there replaces its value in place.
-/

namespace LaneGate

/-- A JSON value. -/
inductive Json where
  /-- `null`. -/
  | null
  /-- `true` or `false`. -/
  | bool (b : Bool)
  /-- A number. -/
  | num (x : Float)
  /-- A string. -/
  | str (s : Text)
  /-- An array. -/
  | arr (items : List Json)
  /-- An object, its members in order. -/
  | obj (members : List (String × Json))
  deriving Inhabited

namespace Json

/-- A string value. -/
def ofString (s : String) : Json := .str (Text.ofString s)

/-- A whole number. -/
def ofNat (n : Nat) : Json := .num n.toFloat

/-- A signed whole number. -/
def ofInt (n : Int) : Json := .num (Float.ofInt n)

/-- A value or `null`. -/
def ofOption {α : Type} (f : α → Json) : Option α → Json
  | some a => f a
  | none => .null

/-- A list of strings. -/
def ofStrings (xs : List String) : Json := .arr (xs.map ofString)

/-- The members with `key` set to `v`: in place if the key is there, else at the end. -/
def setMember (ms : List (String × Json)) (key : String) (v : Json) : List (String × Json) :=
  if ms.any (·.1 == key) then ms.map (fun (k, w) => if k == key then (k, v) else (k, w))
  else ms ++ [(key, v)]

/-- The value of a member, if the value is an object that has it. -/
def get? (j : Json) (key : String) : Option Json :=
  match j with
  | .obj ms => (ms.find? (·.1 == key)).map (·.2)
  | _ => none

/-- The value of a member, `null` when it is missing. -/
def getD (j : Json) (key : String) : Json := (j.get? key).getD .null

/-- Whether an object has a member (of any value, `null` included). -/
def has (j : Json) (key : String) : Bool := (j.get? key).isSome

/-- The member set to a value, if the value is an object; other values unchanged. -/
def set (j : Json) (key : String) (v : Json) : Json :=
  match j with
  | .obj ms => .obj (setMember ms key v)
  | other => other

/-- The members a value spreads into an object: an object's own members, an array's
items under their positions, a string's UTF-16 units under theirs; other values
have none. -/
def entries : Json → List (String × Json)
  | .obj ms => ms
  | .arr xs => (List.range xs.length).zip xs |>.map fun (i, x) => (toString i, x)
  | .str t => (List.range t.units.length).zip t.units |>.map fun (i, u) => (toString i, .str ⟨[u]⟩)
  | _ => []

/-- The text of a string value. -/
def text? : Json → Option Text
  | .str s => some s
  | _ => none

/-- The string of a string value. -/
def str? : Json → Option String
  | .str s => some s.toString
  | _ => none

/-- The number of a number value. -/
def num? : Json → Option Float
  | .num x => some x
  | _ => none

/-- The truth value of a boolean value. -/
def bool? : Json → Option Bool
  | .bool b => some b
  | _ => none

/-- The items of an array value. -/
def arr? : Json → Option (List Json)
  | .arr xs => some xs
  | _ => none

/-- The members of an object value. -/
def obj? : Json → Option (List (String × Json))
  | .obj ms => some ms
  | _ => none

/-- Whether a value is `null`. -/
def isNull : Json → Bool
  | .null => true
  | _ => false

/-- Whether a value is an object. -/
def isObject : Json → Bool
  | .obj _ => true
  | _ => false

end Json

end LaneGate
