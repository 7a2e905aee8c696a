import LaneGate.Json.Value
import LaneGate.Decimal.Format
/-!
# Writing JSON

The compact text of a value: no blanks, members in their order, numbers as
`numberText` writes them, and an infinite or NaN number as `null`.

Strings are quoted with the short escapes `\"`, `\\`, `\b`, `\f`, `\n`, `\r`, `\t`;
other control characters and unpaired surrogates are written as `\u` and four
lowercase hex digits, and every other character as itself (inside the string, as it
is held there: see `Text.toString`).
-/

namespace LaneGate.Json

/-- Four lowercase hex digits. -/
def hex4 (n : Nat) : String :=
  let ds := Nat.toDigits 16 n
  String.ofList (List.replicate (4 - ds.length) '0' ++ ds)

/-- The escaped form of one character inside a string. -/
def escapeChar (c : Char) : String :=
  match c with
  | '"' => "\\\""
  | '\\' => "\\\\"
  | '\x08' => "\\b"
  | '\x0c' => "\\f"
  | '\n' => "\\n"
  | '\r' => "\\r"
  | '\t' => "\\t"
  | c => if c.toNat < 0x20 then "\\u" ++ hex4 c.toNat else String.singleton c

/-- A text as a quoted JSON string. -/
def quote (t : Text) : String :=
  "\"" ++ String.join (t.pieces.map fun
    | .char c => if Text.isCarrier c then String.ofList (Text.Piece.held (.char c)) else escapeChar c
    | .lone u => "\\u" ++ hex4 u.toNat) ++ "\""

/-- The text of a number inside JSON. -/
def numberJson (x : Float) : String :=
  if Decimal.isFinite x then Decimal.numberText x else "null"

mutual
/-- The compact text of a value. -/
def render : Json → String
  | .null => "null"
  | .bool b => if b then "true" else "false"
  | .num x => numberJson x
  | .str s => quote s
  | .arr xs => "[" ++ renderItems xs ++ "]"
  | .obj ms => "\x7b" ++ renderMembers ms ++ "\x7d"

/-- The items of an array, comma separated. -/
def renderItems : List Json → String
  | [] => ""
  | [x] => render x
  | x :: xs => render x ++ "," ++ renderItems xs

/-- The members of an object, comma separated. -/
def renderMembers : List (String × Json) → String
  | [] => ""
  | [(k, v)] => quote (Text.ofString k) ++ ":" ++ render v
  | (k, v) :: ms => quote (Text.ofString k) ++ ":" ++ render v ++ "," ++ renderMembers ms
end

end LaneGate.Json
