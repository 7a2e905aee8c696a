import LaneGate.Text.Units
import LaneGate.Text.Blank
import LaneGate.Config.Schema
/-!
# Redaction

Text that may be logged or returned to a caller is cleaned of secrets in three
passes, each over the result of the one before, working on UTF-16 code units:

1. every occurrence of the value of a secret setting (of at least 8 units) is
   replaced by `[REDACTED]`, the longest values first, so that a secret containing
   another is replaced whole;
2. a key that looks secret (a run of letters, digits, `_` and `-` starting at a word
   boundary and containing `apikey`, `api_key`, `api-key`, `secret`, `token` or
   `password`, in any case), followed by `=` or `:` (blanks around it allowed), keeps
   the key, the separator and any double quotes around its value, and loses the
   value: a nonempty run up to a blank, quote, comma or semicolon, which inside
   double quotes must be closed by one;
3. `Bearer` at a word boundary followed by blanks and at least 8 token characters
   (letters, digits and `._~+/=-`) becomes `Bearer [REDACTED]`.
-/

namespace LaneGate.Redact

/-- What a secret is replaced by. -/
def redacted : List UInt16 := (Text.ofString "[REDACTED]").units

/-- The shortest secret value that is replaced. -/
def minSecretLength : Nat := 8

/-- The unit of an ASCII character. -/
def unit (c : Char) : UInt16 := c.toNat.toUInt16

/-- Whether a unit is an ASCII letter or digit. -/
def isAlnum (u : UInt16) : Bool :=
  (unit 'a' ≤ u && u ≤ unit 'z') || (unit 'A' ≤ u && u ≤ unit 'Z') || (unit '0' ≤ u && u ≤ unit '9')

/-- Whether a unit is a word character: a letter, digit or `_`. -/
def isWordUnit (u : UInt16) : Bool := isAlnum u || u == unit '_'

/-- Whether a unit may be part of a key. -/
def isKeyUnit (u : UInt16) : Bool := isWordUnit u || u == unit '-'

/-- Whether a unit may be part of an unquoted value. -/
def isValueUnit (u : UInt16) : Bool :=
  !(Text.isBlankUnit u || u == unit '"' || u == unit '\'' || u == unit ',' || u == unit ';')

/-- Whether a unit may be part of a bearer token. -/
def isTokenUnit (u : UInt16) : Bool :=
  isAlnum u || [unit '.', unit '_', unit '~', unit '+', unit '/', unit '=', unit '-'].contains u

/-- A unit with ASCII capitals made small. -/
def lowerAscii (u : UInt16) : UInt16 := if unit 'A' ≤ u && u ≤ unit 'Z' then u + 32 else u

/-- Whether a key contains one of the secret-looking words, in any case. -/
def looksSecret (key : List UInt16) : Bool :=
  let k := key.map lowerAscii
  ["apikey", "api_key", "api-key", "secret", "token", "password"].any fun w =>
    Text.occursIn (Text.ofString w).units k

/-- Whether a word boundary lies between an optional previous unit and a unit. -/
def boundary (prev : Option UInt16) (u : UInt16) : Bool :=
  (prev.map isWordUnit).getD false != isWordUnit u

/-! ## Secret values -/

/-- Whether a unit is a syntax character of patterns: `^ $ \ . * + ? ( ) [ ] { } |`. -/
def isSyntaxUnit (u : UInt16) : Bool :=
  ['^', '$', '\\', '.', '*', '+', '?', '(', ')', '[', ']', '\x7b', '\x7d', '|'].any fun c => unit c == u

/-- The pattern source that finds a value literally: each syntax character escaped by
a backslash. -/
def escapePattern (v : List UInt16) : List UInt16 :=
  v.flatMap fun u => if isSyntaxUnit u then [unit '\\', u] else [u]

/-- Whether a pattern source is a literal one: every syntax character in it is escaped,
so it is a sequence of characters, each matching itself. -/
def isLiteral : List UInt16 → Bool
  | [] => true
  | [u] => !isSyntaxUnit u
  | b :: u :: rest =>
    if b == unit '\\' then isSyntaxUnit u && isLiteral rest else !isSyntaxUnit b && isLiteral (u :: rest)

/-- The units a literal pattern source matches, in order: an escaped character stands
for itself. -/
def literalOf : List UInt16 → List UInt16
  | [] => []
  | [u] => [u]
  | b :: u :: rest => if b == unit '\\' then u :: literalOf rest else b :: literalOf (u :: rest)

/-- Replaces every occurrence of a nonempty needle, left to right. -/
def replaceAll (needle : List UInt16) (fuel : Nat) (xs : List UInt16) : List UInt16 :=
  match fuel, xs with
  | 0, xs => xs
  | _, [] => []
  | fuel + 1, u :: rest =>
    if needle ≠ [] ∧ needle.isPrefixOf (u :: rest) then
      redacted ++ replaceAll needle fuel ((u :: rest).drop needle.length)
    else u :: replaceAll needle fuel rest

/-! ## Key-value pairs -/

/-- What gives a key its value: the separator with the blanks around it, the quote
around the value (none, or a double quote), the value, and the units after it. -/
structure Valued where
  /-- `=` or `:`, with the blanks before and after it. -/
  sep : List UInt16
  /-- The quote around the value: none, or a double quote. -/
  quote : List UInt16
  /-- The value. -/
  value : List UInt16
  /-- The units after the value and its closing quote. -/
  rest : List UInt16

/-- What follows a key, if it gives it a value: blanks, `=` or `:`, blanks, then a
nonempty run up to a blank, quote, comma or semicolon, which inside double quotes must
be closed by one. -/
def valueAfter (xs : List UInt16) : Option Valued :=
  let (ws1, rest) := xs.span Text.isBlankUnit
  match rest with
  | c :: rest =>
    if c == unit '=' || c == unit ':' then
      let (ws2, rest) := rest.span Text.isBlankUnit
      let sep := ws1 ++ [c] ++ ws2
      match rest with
      | q :: inner =>
        if q == unit '"' then
          let (value, after) := inner.span isValueUnit
          match after with
          | e :: after => if !value.isEmpty && e == unit '"' then some ⟨sep, [q], value, after⟩ else none
          | [] => none
        else
          let (value, after) := rest.span isValueUnit
          if value.isEmpty then none else some ⟨sep, [], value, after⟩
      | [] => none
    else none
  | [] => none

/-- The key-value pattern at the start of a text that follows the unit `prev`: a key
beginning at a word boundary that looks secret, and what gives it a value. -/
def assignmentAt (prev : Option UInt16) : List UInt16 → Option (List UInt16 × Valued)
  | [] => none
  | u :: rest =>
    if isKeyUnit u && boundary prev u then
      let (key, after) := (u :: rest).span isKeyUnit
      if looksSecret key then (valueAfter after).map fun v => (key, v) else none
    else none

/-- The second pass: secret-looking keys lose their values. -/
def keyValues (fuel : Nat) (prev : Option UInt16) (xs : List UInt16) : List UInt16 :=
  match fuel, xs with
  | 0, xs => xs
  | _, [] => []
  | fuel + 1, u :: rest =>
    match assignmentAt prev (u :: rest) with
    | some (key, v) => key ++ v.sep ++ v.quote ++ redacted ++ v.quote ++ keyValues fuel none v.rest
    | none => u :: keyValues fuel (some u) rest

/-! ## Bearer tokens -/

/-- The units of `Bearer`. -/
def bearer : List UInt16 := (Text.ofString "Bearer").units

/-- What follows `Bearer` in a bearer token: the blanks, the token, and the units after
it. -/
structure Bearing where
  /-- The blanks after `Bearer`. -/
  blanks : List UInt16
  /-- The token. -/
  token : List UInt16
  /-- The units after the token. -/
  rest : List UInt16

/-- The bearer pattern at the start of a text that follows the unit `prev`: `Bearer` at
a word boundary, blanks, and at least 8 token characters. -/
def bearerAt (prev : Option UInt16) : List UInt16 → Option Bearing
  | [] => none
  | u :: rest =>
    if boundary prev u && bearer.isPrefixOf (u :: rest) then
      let (ws, after) := ((u :: rest).drop bearer.length).span Text.isBlankUnit
      let (token, after) := after.span isTokenUnit
      if !ws.isEmpty && token.length ≥ 8 then some ⟨ws, token, after⟩ else none
    else none

/-- The third pass: bearer tokens are replaced. -/
def bearerTokens (fuel : Nat) (prev : Option UInt16) (xs : List UInt16) : List UInt16 :=
  match fuel, xs with
  | 0, xs => xs
  | _, [] => []
  | fuel + 1, u :: rest =>
    match bearerAt prev (u :: rest) with
    | some b => bearer ++ [unit ' '] ++ redacted ++ bearerTokens fuel none b.rest
    | none => u :: bearerTokens fuel (some u) rest

/-- Inserts a value among values sorted longest first, after those as long. -/
def insertLonger (v : Text) : List Text → List Text
  | [] => [v]
  | w :: ws => if v.length > w.length then v :: w :: ws else w :: insertLonger v ws

/-- The values of the secret settings that are long enough, longest first. -/
def secretValues (env : String → Option String) : List Text :=
  let vs := Config.secretKeys.filterMap fun k =>
    (env k).bind fun v => if Text.lengthOf v ≥ minSecretLength then some (Text.ofString v) else none
  vs.foldl (fun acc v => insertLonger v acc) []

/-- A text cleaned of the given secret values, secret-looking values and bearer
tokens. -/
def scrub (secrets : List Text) (t : Text) : Text :=
  let xs := secrets.foldl (fun xs s => replaceAll (literalOf (escapePattern s.units)) (xs.length + 1) xs) t.units
  let xs := keyValues (xs.length + 1) none xs
  ⟨bearerTokens (xs.length + 1) none xs⟩

end LaneGate.Redact
