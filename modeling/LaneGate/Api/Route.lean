import LaneGate.Api.Message
import LaneGate.Json.Reader
/-!
# Routes of the control plane

The control plane answers fourteen endpoints. A request's target is split into its
path and its query (a `#` fragment is dropped); the path is matched against the
routes in order. A route's pattern matches a path segment by segment, literal
segments with ASCII case ignored and a parameter against any non-empty segment,
with one trailing slash allowed. A `HEAD` request is served by the `GET` routes.

A parameter is percent-decoded, the bytes of consecutive escapes read as UTF-8. A
path that a route's pattern matches but whose parameter does not decode (a `%` not
followed by two hex digits, or escaped bytes that are not UTF-8) is refused as a
malformed request, whatever its method, unless an earlier route already took it.
A path no route takes is not found.

A query is read as `&`-separated `key=value` pairs, `+` standing for a blank and
escapes decoded where they decode; a key given more than once has all its values.
-/

namespace LaneGate.Api

/-- The endpoints. -/
inductive Endpoint where
  /-- Breaker and provider health (unsigned). -/
  | health
  /-- An answered question. -/
  | ask
  /-- Every breaker's state and counters. -/
  | listBreakers
  /-- Every breaker reset. -/
  | resetAllBreakers
  /-- One breaker's snapshot. -/
  | getBreaker (name : String)
  /-- One breaker reset. -/
  | resetBreaker (name : String)
  /-- A routing decision. -/
  | decide
  /-- The registered providers. -/
  | listProviders
  /-- One provider. -/
  | describeProvider (name : String)
  /-- Provider health. -/
  | providerHealth
  /-- Routing and question counters. -/
  | metrics
  /-- The spending over a window. -/
  | cost
  /-- The default strategy set. -/
  | setStrategy
  /-- Passages stored. -/
  | ingest
  deriving DecidableEq

/-- Whether an endpoint requires a signature: all but health. -/
def Endpoint.signed : Endpoint → Bool
  | .health => false
  | _ => true

/-- Whether an endpoint's handler answers its own faults, its body one `try` whose
`catch` maps the fault to a status. The others let a fault escape to the
application's last error handler, which answers every error as a malformed body. -/
def Endpoint.catches : Endpoint → Bool
  | .ask | .getBreaker _ | .resetBreaker _ | .decide | .describeProvider _ | .setStrategy | .ingest => true
  | .health | .listBreakers | .resetAllBreakers | .listProviders | .providerHealth | .metrics | .cost => false

/-- A segment of a route's pattern. -/
inductive Segment where
  /-- A literal segment. -/
  | literal (text : String)
  /-- A parameter. -/
  | param

/-- A route: a method, a pattern, and the endpoint of its decoded parameters. -/
structure Route where
  /-- The method served. -/
  method : String
  /-- The pattern's segments after the leading slash. -/
  pattern : List Segment
  /-- The endpoint, given the parameters. -/
  endpoint : List String → Endpoint

/-- The first parameter. -/
def firstParam (ps : List String) : String := ps.headD ""

/-- The routes, in the order they are tried. -/
def routes : List Route :=
  [⟨"GET", [.literal "health"], fun _ => .health⟩,
   ⟨"POST", [.literal "ask"], fun _ => .ask⟩,
   ⟨"GET", [.literal "circuit-breakers"], fun _ => .listBreakers⟩,
   ⟨"POST", [.literal "circuit-breakers", .literal "reset-all"], fun _ => .resetAllBreakers⟩,
   ⟨"GET", [.literal "circuit-breakers", .param], fun ps => .getBreaker (firstParam ps)⟩,
   ⟨"POST", [.literal "circuit-breakers", .param, .literal "reset"], fun ps => .resetBreaker (firstParam ps)⟩,
   ⟨"POST", [.literal "routing", .literal "decide"], fun _ => .decide⟩,
   ⟨"GET", [.literal "routing", .literal "providers"], fun _ => .listProviders⟩,
   ⟨"GET", [.literal "routing", .literal "providers", .param], fun ps => .describeProvider (firstParam ps)⟩,
   ⟨"GET", [.literal "routing", .literal "health"], fun _ => .providerHealth⟩,
   ⟨"GET", [.literal "routing", .literal "metrics"], fun _ => .metrics⟩,
   ⟨"GET", [.literal "routing", .literal "cost"], fun _ => .cost⟩,
   ⟨"PUT", [.literal "routing", .literal "strategy"], fun _ => .setStrategy⟩,
   ⟨"POST", [.literal "runbooks", .literal "ingest"], fun _ => .ingest⟩]

/-- The path and the query of a target (the fragment dropped). -/
def splitTarget (target : String) : String × String :=
  let cs := target.toList.takeWhile (· != '#')
  let (path, rest) := cs.span (· != '?')
  (String.ofList path, String.ofList (rest.drop 1))

/-- The segments of a path after its leading slash, one trailing slash dropped;
none for a path that does not start with a slash. -/
def pathSegments (path : String) : Option (List String) :=
  match path.toList with
  | '/' :: rest =>
    let rest := if rest.getLast? == some '/' then rest.dropLast else rest
    some ((rest.splitOn '/').map String.ofList)
  | _ => none

/-- Whether two texts are equal with ASCII case ignored. -/
def sameIgnoringCase (a b : String) : Bool :=
  a.length == b.length && (a.toList.zip b.toList).all fun (x, y) => x.toLower == y.toLower

/-- The raw parameters of a path's segments that a pattern matches. -/
def matchPattern : List Segment → List String → Option (List String)
  | [], [] => some []
  | .literal l :: ss, p :: ps => if sameIgnoringCase l p then matchPattern ss ps else none
  | .param :: ss, p :: ps => if p.isEmpty then none else (matchPattern ss ps).map (p :: ·)
  | _, _ => none

/-- The byte a `%XX` escape's digits stand for. -/
def escapedByte (a b : Char) : Option Nat := do
  let hi ← Json.hexValue a
  let lo ← Json.hexValue b
  pure (hi * 16 + lo)

/-- How many continuation bytes follow a leading byte; none for a byte that cannot
lead a sequence. -/
def continuationCount (lead : Nat) : Option Nat :=
  if 0xC0 ≤ lead && lead < 0xE0 then some 1
  else if 0xE0 ≤ lead && lead < 0xF0 then some 2
  else if 0xF0 ≤ lead && lead < 0xF8 then some 3
  else none

/-- `n` continuation bytes, each written as an escape. -/
def continuations : Nat → List Char → Option (List Nat × List Char)
  | 0, cs => some ([], cs)
  | n + 1, '%' :: a :: b :: rest => do
    let v ← escapedByte a b
    if v < 0x80 || 0xBF < v then none
    else (continuations n rest).map fun (vs, r) => (v :: vs, r)
  | _, _ => none

/-- The character a UTF-8 sequence encodes, if it encodes one in its shortest form
and outside the surrogates. -/
def decodeSequence (lead : Nat) (conts : List Nat) : Option Char :=
  let (bits, least) : Nat × Nat :=
    if lead < 0xE0 then (lead % 32, 0x80) else if lead < 0xF0 then (lead % 16, 0x800) else (lead % 8, 0x10000)
  let cp := conts.foldl (fun acc c => acc * 64 + c % 64) bits
  if cp < least || 0x10FFFF < cp || (0xD800 ≤ cp && cp ≤ 0xDFFF) then none else some (Char.ofNat cp)

/-- Percent-decodes characters (within a budget of steps). -/
def decodeChars : Nat → List Char → Option (List Char)
  | _, [] => some []
  | 0, _ => none
  | fuel + 1, '%' :: a :: b :: rest => do
    let v ← escapedByte a b
    if v < 0x80 then (decodeChars fuel rest).map (Char.ofNat v :: ·)
    else
      let n ← continuationCount v
      let (conts, rest) ← continuations n rest
      let c ← decodeSequence v conts
      (decodeChars fuel rest).map (c :: ·)
  | _, '%' :: _ => none
  | fuel + 1, c :: rest => (decodeChars fuel rest).map (c :: ·)

/-- A percent-decoded text; none when an escape is malformed. -/
def decodeComponent (s : String) : Option String :=
  (decodeChars (s.length + 1) s.toList).map String.ofList

/-- What routing a request finds. -/
inductive Routed where
  /-- An endpoint. -/
  | found (e : Endpoint)
  /-- A parameter that does not decode. -/
  | malformed
  /-- Nothing. -/
  | notFound
  deriving DecidableEq

/-- Whether a route serves a method (`HEAD` by a `GET` route). -/
def Route.serves (r : Route) (method : String) : Bool :=
  r.method == method || (method == "HEAD" && r.method == "GET")

/-- Routes a request's method and path. -/
def routeOf (method path : String) : Routed :=
  match pathSegments path with
  | none => .notFound
  | some segs =>
    let step (acc : Option Endpoint × Bool) (r : Route) : Option Endpoint × Bool :=
      match acc with
      | (some e, bad) => (some e, bad)
      | (none, bad) =>
        match matchPattern r.pattern segs with
        | none => (none, bad)
        | some raw =>
          match raw.mapM decodeComponent with
          | none => (none, true)
          | some ps => if !bad && r.serves method then (some (r.endpoint ps), bad) else (none, bad)
    match routes.foldl step (none, false) with
    | (some e, _) => .found e
    | (none, true) => .malformed
    | (none, false) => .notFound

/-- A query text decoded: `+` as a blank, then escapes where they decode. -/
def decodeQueryText (s : String) : String :=
  let plain := String.ofList (s.toList.map fun c => if c == '+' then ' ' else c)
  (decodeComponent plain).getD plain

/-- The values a query gives a key, in order. -/
def queryValues (query key : String) : List String :=
  (query.toList.splitOn '&').filterMap fun part =>
    let (k, v) := match part.splitOn '=' with
      | [] => ("", "")
      | [k] => (String.ofList k, "")
      | k :: vs => (String.ofList k, "=".intercalate (vs.map String.ofList))
    if decodeQueryText k == key then some (decodeQueryText v) else none

end LaneGate.Api
