/-!
# Instants

Time in the service is a whole number of milliseconds since 1970-01-01T00:00:00Z
(UTC, no leap seconds). An instant is written in the extended ISO 8601 form
`YYYY-MM-DDTHH:mm:ss.sssZ`; a year outside 0 … 9999 takes a sign and six digits.

Reading accepts that form and its shortenings: a date alone (`YYYY`, `YYYY-MM`,
`YYYY-MM-DD`), a time with or without seconds and fraction, and `Z` or an offset
`±HH:mm`. A date-time without an offset is read as UTC.
-/

namespace LaneGate.Clock

/-- Milliseconds in a day. -/
def dayMs : Int := 86400000

/-- A calendar date. -/
structure Civil where
  /-- The year (proleptic Gregorian). -/
  year : Int
  /-- The month, 1 … 12. -/
  month : Nat
  /-- The day of the month, 1 … 31. -/
  day : Nat
  deriving DecidableEq, Repr

/-- The calendar date of a number of days since 1970-01-01 (counting in 400-year
eras of 146097 days, each year starting on the first of March). -/
def civilOfDays (days : Int) : Civil :=
  let z := days + 719468
  let era := z / 146097
  let doe := (z - era * 146097).toNat
  let yoe := (doe - doe / 1460 + doe / 36524 - doe / 146096) / 365
  let doy := doe - (365 * yoe + yoe / 4 - yoe / 100)
  let mp := (5 * doy + 2) / 153
  let d := doy - (153 * mp + 2) / 5 + 1
  let m := if mp < 10 then mp + 3 else mp - 9
  let y := (yoe : Int) + era * 400 + (if m ≤ 2 then 1 else 0)
  ⟨y, m, d⟩

/-- The number of days since 1970-01-01 of a calendar date. -/
def daysOfCivil (c : Civil) : Int :=
  let y := if c.month ≤ 2 then c.year - 1 else c.year
  let era := y / 400
  let yoe := (y - era * 400).toNat
  let mp := if c.month > 2 then c.month - 3 else c.month + 9
  let doy := (153 * mp + 2) / 5 + c.day - 1
  let doe := yoe * 365 + yoe / 4 - yoe / 100 + doy
  era * 146097 + doe - 719468

/-- Whether a year is a leap year. -/
def isLeap (y : Int) : Bool := (y % 4 == 0 && y % 100 != 0) || y % 400 == 0

/-- The number of days of a month. -/
def monthDays (y : Int) (m : Nat) : Nat :=
  match m with
  | 2 => if isLeap y then 29 else 28
  | 4 | 6 | 9 | 11 => 30
  | _ => 31

/-- A number with at least `width` digits. -/
def padded (width : Nat) (n : Nat) : String :=
  let ds := Nat.toDigits 10 n
  String.ofList (List.replicate (width - ds.length) '0' ++ ds)

/-- The year as written: four digits, or a sign and six digits outside 0 … 9999. -/
def yearText (y : Int) : String :=
  if 0 ≤ y ∧ y ≤ 9999 then padded 4 y.toNat
  else (if y < 0 then "-" else "+") ++ padded 6 y.natAbs

/-- The ISO text of an instant. -/
def iso (t : Int) : String :=
  let days := t / dayMs
  let ms := (t - days * dayMs).toNat
  let c := civilOfDays days
  yearText c.year ++ "-" ++ padded 2 c.month ++ "-" ++ padded 2 c.day ++ "T" ++
    padded 2 (ms / 3600000) ++ ":" ++ padded 2 (ms / 60000 % 60) ++ ":" ++
    padded 2 (ms / 1000 % 60) ++ "." ++ padded 3 (ms % 1000) ++ "Z"

/-- The whole millisecond a time value names: the value cut toward zero, when it is
finite and at most `8.64e15` ms (100 000 000 days) from the epoch. -/
def clip? (t : Float) : Option Int :=
  if t.isNaN || t.isInf || t.abs > 8.64e15 then none
  else
    let n : Int := t.abs.toUInt64.toNat
    some (if t < 0 then -n else n)

/-- The ISO text of a time value that `clip?` accepts (others show as the epoch). -/
def isoAt (t : Float) : String := iso ((clip? t).getD 0)

/-- The calendar day of an instant, as `YYYY-MM-DD`. -/
def dayText (t : Int) : String := (iso t).take 10 |>.toString

/-- The calendar month of an instant, as `YYYY-MM`. -/
def monthText (t : Int) : String := (iso t).take 7 |>.toString

/-- Exactly `n` decimal digits at the front, as a number, and the rest. -/
def digitsN (n : Nat) (cs : List Char) : Option (Nat × List Char) :=
  let ds := cs.take n
  if ds.length == n && ds.all Char.isDigit then
    some (ds.foldl (fun a c => 10 * a + (c.toNat - '0'.toNat)) 0, cs.drop n)
  else none

/-- The year at the front: four digits, or a sign and six digits. -/
def readYear (cs : List Char) : Option (Int × List Char) :=
  match cs with
  | '+' :: rest => (digitsN 6 rest).map fun (y, r) => ((y : Int), r)
  | '-' :: rest => (digitsN 6 rest).bind fun (y, r) => if y == 0 then none else some (-(y : Int), r)
  | _ => (digitsN 4 cs).map fun (y, r) => ((y : Int), r)

/-- An optional `-NN` part with a value in `lo … hi`, defaulting to `dflt`. -/
def readPart (lo hi dflt : Nat) (cs : List Char) : Option (Nat × List Char) :=
  match cs with
  | '-' :: rest => (digitsN 2 rest).bind fun (v, r) => if lo ≤ v ∧ v ≤ hi then some (v, r) else none
  | _ => some (dflt, cs)

/-- The fraction of a second after a point: its first three digits as milliseconds. -/
def readFraction (cs : List Char) : Option (Nat × List Char) :=
  let ds := cs.takeWhile Char.isDigit
  if ds.isEmpty then none
  else
    let three := (ds.take 3 ++ List.replicate (3 - min 3 ds.length) '0')
    some (three.foldl (fun a c => 10 * a + (c.toNat - '0'.toNat)) 0, cs.drop ds.length)

/-- The time of day after `T`, in milliseconds, and the rest. -/
def readTime (cs : List Char) : Option (Nat × List Char) := do
  let (h, cs) ← digitsN 2 cs
  let cs ← match cs with
    | ':' :: r => some r
    | _ => none
  let (m, cs) ← digitsN 2 cs
  let (s, ms, cs) ← match cs with
    | ':' :: r => do
      let (s, r) ← digitsN 2 r
      match r with
      | '.' :: r' => do
        let (f, r'') ← readFraction r'
        pure (s, f, r'')
      | _ => pure (s, 0, r)
    | _ => some (0, 0, cs)
  if h > 24 || m > 59 || s > 59 || (h == 24 && (m != 0 || s != 0 || ms != 0)) then none
  else some (((h * 60 + m) * 60 + s) * 1000 + ms, cs)

/-- The offset at the end: `Z`, `±HH:mm` in milliseconds, or none (UTC). -/
def readOffset (cs : List Char) : Option Int :=
  match cs with
  | [] => some 0
  | ['Z'] => some 0
  | sign :: rest =>
    if sign == '+' || sign == '-' then do
      let (h, r) ← digitsN 2 rest
      let r ← match r with
        | ':' :: r => some r
        | _ => none
      let (m, r) ← digitsN 2 r
      if !r.isEmpty || h > 23 || m > 59 then none
      else
        let off : Int := ((h * 60 + m) * 60000 : Nat)
        some (if sign == '+' then off else -off)
    else none

/-- The instant of an ISO text, if it is one. -/
def parseIso? (s : String) : Option Int := do
  let (y, cs) ← readYear s.toList
  let (m, cs) ← readPart 1 12 1 cs
  let (d, cs) ← readPart 1 31 1 cs
  if d > monthDays y m then none
  let day := daysOfCivil ⟨y, m, d⟩
  match cs with
  | [] => pure (day * dayMs)
  | 'T' :: rest => do
    let (ms, rest) ← readTime rest
    let off ← readOffset rest
    pure (day * dayMs + ms - off)
  | _ => none

end LaneGate.Clock
