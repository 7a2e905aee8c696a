import LaneGate.Json.Primitive
/-!
# Values as keys

Breakers, load figures and other named things are filed under the name they were
given, which need not be a text: a caller may name one by a number, by `null`, or
not at all. A key is such a value, or nothing when the name is missing.

Two keys are the same when both are missing, both `null`, equal truth values,
equal texts, or equal numbers, where not-a-number matches itself and the two zeros
match each other. A list or an object is a fresh value each time it is given and
matches no key.

Where a key has to be written as a member name, its text is used (`undefined` for a
missing one), so two keys of one text share a member.
-/

namespace LaneGate

/-- A name under which something is filed: a value, or none when it is missing. -/
structure Key where
  /-- The value, none when missing. -/
  value : Option Json

namespace Key

/-- Whether two optional values are the same key. -/
def same : Option Json → Option Json → Bool
  | none, none => true
  | some .null, some .null => true
  | some (.bool a), some (.bool b) => a == b
  | some (.num x), some (.num y) => x == y || (x.isNaN && y.isNaN)
  | some (.str s), some (.str t) => s == t
  | _, _ => false

instance : BEq Key := ⟨fun a b => same a.value b.value⟩

/-- The key of a text. -/
def ofString (s : String) : Key := ⟨some (Json.ofString s)⟩

/-- The text a key is written under as a member name. -/
def text (k : Key) : String := (Primitive.ofOption k.value).toText.toString

/-- The text a key shows inside a message (`undefined` when missing). -/
def shown (k : Key) : String :=
  match k.value with
  | some j => Json.shown j
  | none => "undefined"

/-- A key as a value: `null` when missing. -/
def toJson (k : Key) : Json := k.value.getD .null

/-- A key as a member of an object under a field name, which a missing key does
not have. -/
def field (k : Key) (name : String) : List (String × Json) :=
  match k.value with
  | some j => [(name, j)]
  | none => []

theorem same_ofString (s : String) : (ofString s == ofString s) = true := by
  simp [ofString, BEq.beq, same, Json.ofString]

end Key

end LaneGate
