import LaneGate.Json.Writer
import LaneGate.Text.Collate
/-!
# Key order of objects

An object read from JSON does not keep its keys in the order written: keys that
name an array index (the canonical decimal of a number below `2³² - 1`) come
first, in increasing order, and the other keys follow in the order they were
first written. `inKeyOrder` puts every object of a value in that order, so its
text is the one a script runtime writes back.

`sortedText` is a second, canonical text of a value: every object's keys sorted in
collation order (`Collate.compare`; keys that collate equal keep their key order),
every other value written as usual. Two values that differ only in the order of
their keys have the same sorted text.
-/

namespace LaneGate.Json

/-- The largest array index plus one: `2³² - 1`. -/
def indexBound : Nat := 4294967295

/-- The array index a key names, if it names one: digits only, no leading zero
(but `0` itself), below `indexBound`. -/
def arrayIndex? (key : String) : Option Nat :=
  match key.toList with
  | [] => none
  | '0' :: _ :: _ => none
  | cs =>
    if cs.all Char.isDigit then
      let n := cs.foldl (fun acc c => acc * 10 + (c.toNat - 48)) 0
      if n < indexBound then some n else none
    else none

/-- Inserts a member after every index member whose index is not larger. -/
def insertIndexed {α : Type} (m : Nat × (String × α)) : List (Nat × (String × α)) → List (Nat × (String × α))
  | [] => [m]
  | x :: xs => if m.1 < x.1 then m :: x :: xs else x :: insertIndexed m xs

/-- Members in key order: the index keys by increasing index, then the others in
their order. -/
def keyOrdered {α : Type} (ms : List (String × α)) : List (String × α) :=
  let indexed := ms.filterMap fun m => (arrayIndex? m.1).map (·, m)
  (indexed.foldl (fun acc m => insertIndexed m acc) []).map (·.2) ++
    ms.filter fun m => (arrayIndex? m.1).isNone

mutual
/-- A value with every object in key order. -/
def inKeyOrder : Json → Json
  | .arr xs => .arr (inKeyOrderItems xs)
  | .obj ms => .obj (keyOrdered (inKeyOrderMembers ms))
  | j => j

/-- Items with every object in key order. -/
def inKeyOrderItems : List Json → List Json
  | [] => []
  | x :: xs => inKeyOrder x :: inKeyOrderItems xs

/-- Members whose values have every object in key order. -/
def inKeyOrderMembers : List (String × Json) → List (String × Json)
  | [] => []
  | (k, v) :: ms => (k, inKeyOrder v) :: inKeyOrderMembers ms
end

mutual
/-- A value with every object's keys in collation order. -/
def keysSorted : Json → Json
  | .arr xs => .arr (keysSortedItems xs)
  | .obj ms => .obj (Collate.sortBy (·.1) (keyOrdered (keysSortedMembers ms)))
  | j => j

/-- Items with every object's keys in collation order. -/
def keysSortedItems : List Json → List Json
  | [] => []
  | x :: xs => keysSorted x :: keysSortedItems xs

/-- Members whose values have every object's keys in collation order. -/
def keysSortedMembers : List (String × Json) → List (String × Json)
  | [] => []
  | (k, v) :: ms => (k, keysSorted v) :: keysSortedMembers ms
end

/-- The text of a value as a script runtime writes it back. -/
def orderedText (j : Json) : String := render (inKeyOrder j)

/-- The canonical text of a value: keys sorted in collation order at every level. -/
def sortedText (j : Json) : String := render (keysSorted j)

end LaneGate.Json
