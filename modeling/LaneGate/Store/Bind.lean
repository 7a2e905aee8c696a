import LaneGate.Store.Cell
import LaneGate.Store.RealText
/-!
# Handing values to a statement

A statement has a fixed number of placeholders, filled in order by the values it is
handed (`bindAll`):

* a number fills one placeholder as a double (not-a-number as nothing), a text as a
  text, `null` as nothing; a truth value cannot be handed over, nor a list or an
  object inside a list (a type error);
* a list fills one placeholder with each of its items in turn;
* an object names values for named placeholders, which these statements do not
  have, so it fills none; a second object is a type error;
* a value past the last placeholder is refused with `Too many parameter values were
  provided`, and placeholders left empty with `Too few parameter values were
  provided` (both range errors).

A column of texts keeps a number it is given as the text the database writes for it
(`Cell.asText`), so `5` is kept as `5.0`.
-/

namespace LaneGate.Store

/-- The cell one value fills a placeholder with. -/
def bindOne : Json → Except Fault Cell
  | .null => .ok .null
  | .num x => .ok (Cell.ofNumber x)
  | .str s => .ok (.text s.toString)
  | _ => .error .wrongType

/-- The refusal of a value past the last placeholder. -/
def tooMany : Fault := .outOfRange "Too many parameter values were provided"

/-- The refusal of placeholders left empty. -/
def tooFew : Fault := .outOfRange "Too few parameter values were provided"

/-- Cells bound so far, and whether an object was handed over. -/
structure Binding where
  /-- The cells, in placeholder order. -/
  cells : List Cell := []
  /-- Whether an object has been handed over. -/
  sawObject : Bool := false

/-- Fills the next placeholder with one value. -/
def Binding.push (params : Nat) (b : Binding) (v : Json) : Except Fault Binding := do
  let c ← bindOne v
  if b.cells.length ≥ params then throw tooMany
  pure { b with cells := b.cells ++ [c] }

/-- Hands one argument over. -/
def Binding.take (params : Nat) (b : Binding) : Json → Except Fault Binding
  | .arr xs => xs.foldlM (Binding.push params) b
  | .obj _ => if b.sawObject then .error .wrongType else .ok { b with sawObject := true }
  | v => b.push params v

/-- The cells a statement of `params` placeholders is filled with from its
arguments. -/
def bindAll (params : Nat) (args : List Json) : Except Fault (List Cell) := do
  let b ← args.foldlM (Binding.take params) {}
  if b.cells.length < params then throw tooFew
  pure b.cells

namespace Cell

/-- A value as a column of texts keeps it: numbers become their text. -/
def asText : Cell → Cell
  | .int i => .text (toString i)
  | .real x => .text (realText x)
  | c => c

/-- The text a column of texts holds, none for nothing. -/
def text? (c : Cell) : Option String :=
  match c.asText with
  | .text s => some s
  | _ => none

/-- The text a column of texts that refuses nothing holds; nothing is refused with
`NOT NULL constraint failed: <column>`. -/
def requiredText (column : String) (c : Cell) : Except Fault String :=
  match c.text? with
  | some s => .ok s
  | none => .error (.storage ("NOT NULL constraint failed: " ++ column))

/-- A cell as the value a query hands back: nothing as `null`, numbers as numbers,
texts as texts. -/
def toJson : Cell → Json
  | .null => .null
  | .int i => .num (Float.ofInt i)
  | .real x => .num x
  | .text s => Json.ofString s

end Cell

end LaneGate.Store
