import LaneGate.Json.Value
import LaneGate.Decimal.Read
/-!
# Reading JSON

The strict JSON grammar: blanks are space, tab, line feed and carriage return; a
number is `-? (0 | [1-9][0-9]*) (. [0-9]+)? ([eE] [+-]? [0-9]+)?` and reads as the
nearest double; a string takes the escapes `\" \\ \/ \b \f \n \r \t \uXXXX` and no raw
control character; the whole text is one value between blanks. A key given twice
keeps its first place and its last value.

Each nested read consumes at least one character, so a budget of one step per
character (plus one) is never exhausted on a text the grammar accepts.
-/

namespace LaneGate.Json

/-- The characters after leading JSON blanks. -/
def skipBlanks : List Char → List Char
  | c :: rest =>
    if c == ' ' || c == '\t' || c == '\n' || c == '\r' then skipBlanks rest else c :: rest
  | [] => []

/-- The value of a hex digit. -/
def hexValue (c : Char) : Option Nat :=
  if '0' ≤ c ∧ c ≤ '9' then some (c.toNat - '0'.toNat)
  else if 'a' ≤ c ∧ c ≤ 'f' then some (c.toNat - 'a'.toNat + 10)
  else if 'A' ≤ c ∧ c ≤ 'F' then some (c.toNat - 'A'.toNat + 10)
  else none

/-- The unit of four hex digits. -/
def hexUnit (a b c d : Char) : Option UInt16 := do
  let a ← hexValue a
  let b ← hexValue b
  let c ← hexValue c
  let d ← hexValue d
  pure (((a * 16 + b) * 16 + c) * 16 + d).toUInt16

/-- The rest of a string after its opening quote: its units (collected in reverse
in `acc`) and what follows the closing quote. -/
def readString (acc : List UInt16) : List Char → Option (Text × List Char)
  | [] => none
  | '"' :: rest => some (⟨acc.reverse⟩, rest)
  | '\\' :: 'u' :: a :: b :: c :: d :: rest =>
    match hexUnit a b c d with
    | some u => readString (u :: acc) rest
    | none => none
  | '\\' :: c :: rest =>
    match c with
    | '"' => readString (0x22 :: acc) rest
    | '\\' => readString (0x5C :: acc) rest
    | '/' => readString (0x2F :: acc) rest
    | 'b' => readString (0x08 :: acc) rest
    | 'f' => readString (0x0C :: acc) rest
    | 'n' => readString (0x0A :: acc) rest
    | 'r' => readString (0x0D :: acc) rest
    | 't' => readString (0x09 :: acc) rest
    | _ => none
  | c :: rest =>
    if c.toNat < 0x20 then none
    else readString ((Text.unitsOf c).reverse ++ acc) rest

/-- The digits at the front and what follows them. -/
def spanDigits (cs : List Char) : List Char × List Char :=
  (cs.takeWhile Char.isDigit, cs.dropWhile Char.isDigit)

/-- The value of a list of decimal digits. -/
def digitsValue (ds : List Char) : Nat :=
  ds.foldl (fun n c => 10 * n + (c.toNat - '0'.toNat)) 0

/-- The optional minus sign of a number. -/
def numberSign : List Char → Bool × List Char
  | '-' :: rest => (true, rest)
  | cs => (false, cs)

/-- The integer digits of a number: a lone zero, or digits from a nonzero one on. -/
def integerDigits : List Char → Option (List Char × List Char)
  | '0' :: rest => some (['0'], rest)
  | c :: rest => if '1' ≤ c ∧ c ≤ '9' then some (spanDigits (c :: rest)) else none
  | [] => none

/-- The fraction digits of a number: none, or a point and at least one digit. -/
def fractionDigits : List Char → Option (List Char × List Char)
  | '.' :: rest =>
    let (ds, rest) := spanDigits rest
    if ds.isEmpty then none else some (ds, rest)
  | cs => some ([], cs)

/-- The exponent of a number: zero, or `e`/`E`, an optional sign and at least one
digit. -/
def exponentPart : List Char → Option (Int × List Char)
  | e :: rest =>
    if e == 'e' || e == 'E' then
      let (sign, rest) := match rest with
        | '+' :: r => ((1 : Int), r)
        | '-' :: r => (-1, r)
        | r => (1, r)
      let (ds, rest) := spanDigits rest
      if ds.isEmpty then none else some (sign * (digitsValue ds : Int), rest)
    else some (0, e :: rest)
  | [] => some (0, [])

/-- A number at the front: its double and what follows. -/
def readNumber (cs : List Char) : Option (Float × List Char) := do
  let (neg, cs) := numberSign cs
  let (intDigits, cs) ← integerDigits cs
  let (fracDigits, cs) ← fractionDigits cs
  let (exp, cs) ← exponentPart cs
  pure (Decimal.ofDecimal neg (digitsValue (intDigits ++ fracDigits)) (exp - fracDigits.length), cs)

/-- Whether the front of the input is the given word. -/
def startsWithWord (word : List Char) (cs : List Char) : Option (List Char) :=
  if cs.take word.length == word then some (cs.drop word.length) else none

mutual
/-- A value at the front (after blanks) and what follows it, within a budget of steps. -/
def readValue : Nat → List Char → Option (Json × List Char)
  | 0, _ => none
  | fuel + 1, cs =>
    match skipBlanks cs with
    | '{' :: rest =>
      match skipBlanks rest with
      | '}' :: rest => some (.obj [], rest)
      | rest => readMembers fuel [] rest
    | '[' :: rest =>
      match skipBlanks rest with
      | ']' :: rest => some (.arr [], rest)
      | rest => readItems fuel [] rest
    | '"' :: rest => (readString [] rest).map fun (t, r) => (.str t, r)
    | 't' :: rest => (startsWithWord ['r', 'u', 'e'] rest).map ((.bool true, ·))
    | 'f' :: rest => (startsWithWord ['a', 'l', 's', 'e'] rest).map ((.bool false, ·))
    | 'n' :: rest => (startsWithWord ['u', 'l', 'l'] rest).map ((.null, ·))
    | cs => (readNumber cs).map fun (x, r) => (.num x, r)

/-- The items of an array after its opening bracket (collected in reverse). -/
def readItems : Nat → List Json → List Char → Option (Json × List Char)
  | 0, _, _ => none
  | fuel + 1, acc, cs => do
    let (v, rest) ← readValue fuel cs
    match skipBlanks rest with
    | ',' :: rest => readItems fuel (v :: acc) rest
    | ']' :: rest => some (.arr (v :: acc).reverse, rest)
    | _ => none

/-- The members of an object after its opening brace. -/
def readMembers : Nat → List (String × Json) → List Char → Option (Json × List Char)
  | 0, _, _ => none
  | fuel + 1, acc, cs =>
    match skipBlanks cs with
    | '"' :: rest => do
      let (key, rest) ← readString [] rest
      match skipBlanks rest with
      | ':' :: rest => do
        let (v, rest) ← readValue fuel rest
        let acc := setMember acc key.toString v
        match skipBlanks rest with
        | ',' :: rest => readMembers fuel acc rest
        | '}' :: rest => some (.obj acc, rest)
        | _ => none
      | _ => none
    | _ => none
end

/-- The value of a whole JSON text, if the text is one. -/
def parse (s : String) : Option Json :=
  let cs := s.toList
  match readValue (2 * cs.length + 2) cs with
  | some (v, rest) => if (skipBlanks rest).isEmpty then some v else none
  | none => none

end LaneGate.Json
