import LaneGate.Fault
import LaneGate.Decimal.Parse
/-!
# Stored values

A table cell holds nothing, a 64-bit integer, a double or a text.

A number handed to the tables is a double, except that not-a-number is handed over
as nothing. A column of numbers reads what it is given as a number where it can
(`Cell.numeric`): a text that spells a number becomes that number, and a double that
is a whole number strictly between `-2^63` and `2^63` becomes an integer. A column
of doubles reads every number back as a double (`Cell.asReal`).

A text spells a number when, blanks at both ends aside, it is an optional sign, digits
with an optional point (a digit on one side of it at least) and an optional exponent.
Written without point or exponent, a number that fits in 64 bits is an integer;
any other number is a double.

A row count or offset must be an integer once read as a number; anything else is
the error `datatype mismatch` (`Cell.rowCount`).

Sums (`Summation`) go the database's way: integers are added exactly while the sum
fits in 64 bits; from the first double, or the first overflow, the rest is added as
doubles with error compensation (Kahan–Babuška–Neumaier), an integer of `2^52` or
more being split in two so that none of its bits are lost on the way. An overflow
that no double follows ends the sum with the error `integer overflow`.
-/

namespace LaneGate.Store

/-- A value as a table holds it. -/
inductive Cell where
  /-- No value. -/
  | null
  /-- A 64-bit integer. -/
  | int (i : Int)
  /-- A double. -/
  | real (x : Float)
  /-- A text. -/
  | text (s : String)

/-- `2^63`, the first integer past the 64-bit ones. -/
def int64Limit : Nat := 9223372036854775808

/-- Whether an integer fits in 64 bits. -/
def fitsInt64 (i : Int) : Bool := -(int64Limit : Int) ≤ i && i < int64Limit

/-- The integer a double stands for, when it is a whole number strictly between
`-2^63` and `2^63`. -/
def wholeOf? (x : Float) : Option Int :=
  if Decimal.isFinite x && Decimal.isWhole x && (Decimal.wholePart x).natAbs < int64Limit then
    some (Decimal.wholePart x)
  else none

/-- Whether a character is a blank to the database: a space or a control character
from tab to carriage return. -/
def isSpace (c : Char) : Bool := c == ' ' || ('\t' ≤ c && c ≤ '\r')

/-- The exponent part of a number's text: none at all, or `e`/`E`, an optional sign
and at least one digit, with nothing after it. Also says whether there was one. -/
def exponentPart : List Char → Option (Bool × Int)
  | [] => some (false, 0)
  | e :: rest =>
    if e == 'e' || e == 'E' then
      let (neg, digits) := match rest with
        | '+' :: ds => (false, ds)
        | '-' :: ds => (true, ds)
        | ds => (false, ds)
      if !digits.isEmpty && digits.all Char.isDigit then
        let v : Int := Decimal.decimalValue digits
        some (true, if neg then -v else v)
      else none
    else none

/-- The number a text spells, if it spells one. -/
def numberOfText? (s : String) : Option Cell :=
  let cs := ((s.toList.dropWhile isSpace).reverse.dropWhile isSpace).reverse
  let (neg, body) := match cs with
    | '-' :: r => (true, r)
    | '+' :: r => (false, r)
    | r => (false, r)
  let (whole, rest) := body.span Char.isDigit
  let (point, frac, rest) := match rest with
    | '.' :: more =>
      let (f, r) := more.span Char.isDigit
      (true, f, r)
    | _ => (false, [], rest)
  if whole.isEmpty && frac.isEmpty then none
  else
    (exponentPart rest).map fun (hasExponent, e) =>
      if !point && !hasExponent then
        let n : Int := Decimal.decimalValue whole
        let v := if neg then -n else n
        if fitsInt64 v then .int v else .real (Decimal.ofDecimal neg (Decimal.decimalValue whole) 0)
      else .real (Decimal.ofDecimal neg (Decimal.decimalValue (whole ++ frac)) (e - frac.length))

namespace Cell

/-- A number as it is handed to the tables. -/
def ofNumber (x : Float) : Cell := if x.isNaN then .null else .real x

/-- A double as a column of numbers keeps it. -/
def ofDouble (x : Float) : Cell :=
  match wholeOf? x with
  | some n => .int n
  | none => .real x

/-- A value as a column of numbers keeps it. -/
def numeric : Cell → Cell
  | .real x => ofDouble x
  | .text s =>
    match numberOfText? s with
    | some (.real x) => ofDouble x
    | some c => c
    | none => .text s
  | c => c

/-- A value as a column of doubles keeps it. -/
def asReal (c : Cell) : Cell :=
  match c.numeric with
  | .int i => .real (Float.ofInt i)
  | c => c

/-- Whether a cell holds nothing. -/
def isNull : Cell → Bool
  | .null => true
  | _ => false

/-- A row count or offset: the integer the value reads as. -/
def rowCount (c : Cell) : Except Fault Int :=
  match c.numeric with
  | .int i => .ok i
  | _ => .error (.storage "datatype mismatch")

/-- The double the leading part of a text spells (zero when none does), as a sum
reads a text. -/
def leadingDouble (s : String) : Float :=
  let cs := s.toList.dropWhile isSpace
  let prefixes := (List.range (cs.length + 1)).reverse.map fun n => String.ofList (cs.take n)
  match prefixes.findSome? numberOfText? with
  | some (.int i) => Float.ofInt i
  | some (.real x) => x
  | _ => 0

end Cell

/-- Takes the rows a row count allows: a negative count allows them all. -/
def takeCount {α : Type} (n : Int) (rows : List α) : List α :=
  if n < 0 then rows else rows.take n.toNat

/-- A running sum with error compensation: the sum so far and the error carried. -/
structure CompensatedSum where
  /-- The sum so far. -/
  sum : Float := 0
  /-- The rounding error carried. -/
  err : Float := 0

namespace CompensatedSum

/-- Adds a term to a compensated sum. -/
def add (s : CompensatedSum) (r : Float) : CompensatedSum :=
  let t := s.sum + r
  let err := if s.sum.abs > r.abs then s.err + ((s.sum - t) + r) else s.err + ((r - t) + s.sum)
  ⟨t, err⟩

/-- The value of a compensated sum; the error is left out once it is not finite. -/
def value (s : CompensatedSum) : Float :=
  if s.err.isNaN || s.err.isInf then s.sum else s.sum + s.err

/-- `2^52`: integers from here on are split before they are added as doubles. -/
def splitBound : Nat := 4503599627370496

/-- An integer as a high part (a multiple of `2^14`) and the rest, both exact as
doubles. -/
def split (i : Int) : Float × Float :=
  let low := i.tmod 16384
  (Float.ofInt (i - low), Float.ofInt low)

/-- A compensated sum that starts from an integer. -/
def ofInt (i : Int) : CompensatedSum :=
  if splitBound ≤ i.natAbs then
    let (high, low) := split i
    ⟨high, low⟩
  else ⟨Float.ofInt i, 0⟩

/-- Adds an integer to a compensated sum. -/
def addInt (s : CompensatedSum) (i : Int) : CompensatedSum :=
  if splitBound ≤ i.natAbs then
    let (high, low) := split i
    (s.add high).add low
  else s.add (Float.ofInt i)

end CompensatedSum

/-- A sum in progress. -/
structure Summation where
  /-- The exact sum, while no double has been seen and no overflow. -/
  whole : Int := 0
  /-- The compensated sum, once the sum is no longer exact. -/
  approx : Option CompensatedSum := none
  /-- Whether an overflow was seen and no double since. -/
  overflowed : Bool := false
  /-- How many values were added. -/
  count : Nat := 0

namespace Summation

/-- Adds an integer. -/
def addInt (s : Summation) (i : Int) : Summation :=
  let s := { s with count := s.count + 1 }
  match s.approx with
  | some a => { s with approx := some (a.addInt i) }
  | none =>
    if fitsInt64 (s.whole + i) then { s with whole := s.whole + i }
    else { s with overflowed := true, approx := some ((CompensatedSum.ofInt s.whole).addInt i) }

/-- Adds a double. -/
def addReal (s : Summation) (x : Float) : Summation :=
  let s := { s with count := s.count + 1 }
  match s.approx with
  | some a => { s with approx := some (a.add x), overflowed := false }
  | none => { s with approx := some ((CompensatedSum.ofInt s.whole).add x) }

/-- Adds a cell: nothing is skipped, and a text counts as the number it spells (or
the double its leading part spells). -/
def add (s : Summation) : Cell → Summation
  | .null => s
  | .int i => s.addInt i
  | .real x => s.addReal x
  | .text t =>
    match numberOfText? t with
    | some (.int i) => s.addInt i
    | some (.real x) => s.addReal x
    | _ => s.addReal (Cell.leadingDouble t)

/-- The value of a sum: nothing for no values, an integer while exact, else a double. -/
def value (s : Summation) : Except Fault Cell :=
  if s.count = 0 then .ok .null
  else
    match s.approx with
    | none => .ok (.int s.whole)
    | some a => if s.overflowed then .error (.storage "integer overflow") else .ok (.real a.value)

/-- The sum of a list of cells. -/
def ofCells (cs : List Cell) : Except Fault Cell :=
  (cs.foldl add {}).value

end Summation

end LaneGate.Store
