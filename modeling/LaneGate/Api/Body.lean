import LaneGate.Json.Reader
import LaneGate.Text.Blank
import LaneGate.Text.Case
/-!
# Request bodies

A body is read as JSON only when the request has one and its Content-Type is
`application/json` (any case, parameters allowed). Otherwise the request's value is
the empty object and no text was read.

A body travels as UTF-8, so an unpaired surrogate in it arrives as U+FFFD.
A JSON body is refused (and the request answered 400 before it reaches any route)
when its charset is not UTF-8 (a charset must start with `utf-`, and only UTF-8 is
decoded), when it is longer than 100 KiB of UTF-8, or when it does not read as
strict JSON: after a leading byte-order mark is dropped and blanks skipped, it
must start with `{` or `[` and the whole text must be one JSON value. An empty
body reads as the empty object. The text read (byte-order mark kept) is kept for
the signature check.

A Content-Type is a `type/subtype` pair of tokens, then parameters
`; key=value` with blanks around the `=` and after the value allowed, each value a
token or a quoted string (`\` escaping the character after it). Anything else is
not a media type.
-/

namespace LaneGate.Api

/-- The largest body read, in bytes. -/
def bodyLimit : Nat := 102400

/-- The characters of a token, besides ASCII letters and digits. -/
def tokenSymbols : List Char :=
  ['!', '#', '$', '%', '&', '\x27', '*', '+', '.', '^', '_', '\x60', '|', '~', '-']

/-- Whether a character may stand in a token. -/
def isTokenChar (c : Char) : Bool := (c.toNat < 128 && c.isAlphanum) || tokenSymbols.contains c

/-- Whether a character may stand unescaped in a quoted string. -/
def isQuotedChar (c : Char) : Bool :=
  let n := c.toNat
  n == 0x0b || n == 0x20 || n == 0x21 || (0x23 ≤ n && n ≤ 0x5b) || (0x5d ≤ n && n ≤ 0x7e) ||
    (0x80 ≤ n && n ≤ 0xff)

/-- Whether a character may follow a backslash in a quoted string. -/
def isEscapedChar (c : Char) : Bool := c.toNat == 0x0b || (0x20 ≤ c.toNat && c.toNat ≤ 0xff)

/-- The content of a quoted string after its opening quote, unescaped, and what
follows its closing quote. -/
def quotedString : List Char → Option (List Char × List Char)
  | [] => none
  | '"' :: rest => some ([], rest)
  | '\x5c' :: c :: rest =>
    if isEscapedChar c then (quotedString rest).map fun (v, r) => (c :: v, r) else none
  | c :: rest => if isQuotedChar c then (quotedString rest).map fun (v, r) => (c :: v, r) else none

/-- Drops leading spaces. -/
def dropSpaces (cs : List Char) : List Char := cs.dropWhile (· == ' ')

/-- The parameters after a media type: `; key=value` pairs up to the end, keys
lowered (within a budget of pairs). -/
def readParameters : Nat → List Char → Option (List (String × String))
  | _, [] => some []
  | 0, _ => none
  | fuel + 1, ';' :: rest =>
    let (key, rest) := (dropSpaces rest).span isTokenChar
    if key.isEmpty then none
    else
      match dropSpaces rest with
      | '=' :: rest =>
        let value : Option (List Char × List Char) := match dropSpaces rest with
          | '"' :: r => quotedString r
          | r =>
            let (v, r) := r.span isTokenChar
            if v.isEmpty then none else some (v, r)
        match value with
        | none => none
        | some (v, r) =>
          (readParameters fuel (dropSpaces r)).map ((Text.lower (String.ofList key), String.ofList v) :: ·)
      | _ => none
  | _, _ => none

/-- A media type: its `type/subtype` lowered, and its parameters. -/
structure MediaType where
  /-- The type and subtype, lowered. -/
  essence : String
  /-- The parameters in order, keys lowered. -/
  parameters : List (String × String)

/-- The media type a Content-Type names, if it is one. -/
def MediaType.parse (header : String) : Option MediaType :=
  let cs := header.toList
  let (head, params) := cs.span (· != ';')
  let essence := Text.trimChars head
  let (kind, rest) := essence.span isTokenChar
  match rest with
  | '/' :: sub =>
    if kind.isEmpty || sub.isEmpty || !sub.all isTokenChar then none
    else (readParameters (params.length + 1) params).map fun ps => ⟨Text.lower (String.ofList essence), ps⟩
  | _ => none

/-- A parameter's value (the last one given). -/
def MediaType.parameter? (m : MediaType) (key : String) : Option String :=
  (m.parameters.reverse.find? (·.1 == key)).map (·.2)

/-- Whether a Content-Type asks for JSON to be read. -/
def isJsonType (header : Option String) : Bool :=
  match header.bind MediaType.parse with
  | some m => m.essence == "application/json"
  | none => false

/-- The charset a Content-Type declares, lowered; UTF-8 when it declares none or
does not read. -/
def charsetOf (header : Option String) : String :=
  match (header.bind MediaType.parse).bind (·.parameter? "charset") with
  | some c => if c.isEmpty then "utf-8" else Text.lower c
  | none => "utf-8"

/-- A charset's name reduced to its letters and digits (a trailing `:nnnn` dropped). -/
def charsetKey (c : String) : String :=
  let cs := c.toList
  let cs := match cs.reverse with
    | d4 :: d3 :: d2 :: d1 :: ':' :: more =>
      if [d1, d2, d3, d4].all Char.isDigit then more.reverse else cs
    | _ => cs
  String.ofList (cs.filter fun ch => ch.isDigit || ('a' ≤ ch && ch ≤ 'z'))

/-- Whether a charset is read as UTF-8. -/
def isUtf8 (c : String) : Bool := c.startsWith "utf-" && charsetKey c == "utf8"

/-- What a request's body reads as: the request's value, and the text read. -/
structure Body where
  /-- The value (the empty object when nothing was read). -/
  value : Json
  /-- The text read, when one was. -/
  raw : Option String

/-- The body of a request that sends nothing readable. -/
def Body.empty : Body := ⟨.obj [], none⟩

/-- Whether a character is a JSON blank. -/
def isJsonBlank (c : Char) : Bool := c == ' ' || c == '\t' || c == '\n' || c == '\r'

/-- Reads a JSON text the strict way: empty is the empty object; otherwise it must
start (after blanks) with a brace or a bracket and be one JSON value. -/
def readStrict (text : String) : Option Json :=
  if text.isEmpty then some (.obj [])
  else
    match text.toList.dropWhile isJsonBlank with
    | '{' :: _ | '[' :: _ => Json.parse text
    | _ => none

/-- Reads a request's body: none when it is refused. -/
def readBody (contentType : Option String) (body : Option String) : Option Body :=
  match body with
  | none => some Body.empty
  | some sent =>
    let text := Text.wellFormed sent
    if !isJsonType contentType then some Body.empty
    else if !isUtf8 (charsetOf contentType) then none
    else if (Text.ofString text).utf8.length > bodyLimit then none
    else
      let decoded := match text.toList with
        | '\uFEFF' :: rest => String.ofList rest
        | _ => text
      (readStrict decoded).map fun v => ⟨v, some text⟩

end LaneGate.Api
