import LaneGate.Clock
import LaneGate.Decimal.Read
import LaneGate.Text.Blank
import LaneGate.Text.Units
/-!
# Reading dates leniently

`Clock.readDate` turns a text into a time value the way the service's date
reading does: the ISO form first, and whatever that leaves over read by older,
lenient rules. The result is the number of milliseconds since the epoch, or
not-a-number when the text is not a date. Dates without a zone are read in
UTC, which is the service's local zone.

The text is first cut into tokens: a run of digits is a number (its value from
its first nine significant digits, and its length); `:`, `-`, `+`, `.` and `)` are
symbols; a run of characters from `A` up (blanks excluded) is a word, known by its
first three letters lowered (month names by their prefix, `am`/`pm`, the zones
`ut`, `utc`, `z`, `gmt`, `cdt`, `cst`, `edt`, `est`, `mdt`, `mst`, `pdt`, `pst`, and
the time separator `t`); a blank is a space; a parenthesized part and any other
character are unknown tokens.

The ISO form is `[±YY]YYYY[-MM[-DD]][THH:mm[:ss[.s…]][Z|±hh:mm|±hhmm]]`, with
`-000000` refused and an hour of 24 only at midnight. A date alone is UTC, a date
with a time and no zone is local. When the form stops early, the lenient rules
take over from the token where it stopped, keeping the date parts read so far:

* a number before `:` is a time part (before `::`, a time with zero seconds); a
  number before `.` that a time expects is followed by milliseconds; a number a
  zone expects is its minutes; a number a time expects ends it (and must be
  followed by the end, a space, `z` or a sign); any other number is a date part;
* a month name names the month; `am`/`pm` after a time shifts its hour; a zone
  name after a number sets the zone; any other word is refused once a number has
  been read, or when a number follows it directly;
* a sign after a time or a UTC zone starts an offset (`±h`, `±hh`, `±hmm`,
  `±hhmm`, or `±hh:` with the minutes to come); another sign or `)` after a number
  is refused; everything else is skipped.

Date parts are read year first when the first is not a day of the month (or the
ISO form was read), otherwise month, day and year; with a named month, the parts
are the day and year in either order. Missing parts are 1, a two-digit year of the
lenient rules means 2000 to 2049 or 1950 to 1999, and a day past the end of its
month runs into the next. The result must lie within `8.64e15` ms of the epoch.
-/

namespace LaneGate.Clock

/-- What a word stands for. -/
inductive WordKind where
  /-- A month, by its number. -/
  | monthName
  /-- `am` or `pm`: an hour offset of 0 or 12. -/
  | amPm
  /-- A zone, by its offset in hours. -/
  | zoneName
  /-- The `t` between a date and a time. -/
  | timeSeparator
  /-- Any other word. -/
  | other
  deriving DecidableEq

/-- A token of a date text. -/
inductive Token where
  /-- A run of digits: its value and its length. -/
  | number (value length : Nat)
  /-- One of `:`, `-`, `+`, `.` and `)`. -/
  | symbol (c : Char)
  /-- A word: what it stands for, its value, and its length. -/
  | word (kind : WordKind) (value : Int) (length : Nat)
  /-- A blank. -/
  | space
  /-- Anything else. -/
  | unknown
  /-- The end of the text. -/
  | finish

/-- The known words: their first three letters (padded with nothing), kind and
value. -/
def keywords : List (List Char × WordKind × Int) :=
  [ (['j', 'a', 'n'], .monthName, 1), (['f', 'e', 'b'], .monthName, 2),
    (['m', 'a', 'r'], .monthName, 3), (['a', 'p', 'r'], .monthName, 4),
    (['m', 'a', 'y'], .monthName, 5), (['j', 'u', 'n'], .monthName, 6),
    (['j', 'u', 'l'], .monthName, 7), (['a', 'u', 'g'], .monthName, 8),
    (['s', 'e', 'p'], .monthName, 9), (['o', 'c', 't'], .monthName, 10),
    (['n', 'o', 'v'], .monthName, 11), (['d', 'e', 'c'], .monthName, 12),
    (['a', 'm'], .amPm, 0), (['p', 'm'], .amPm, 12),
    (['u', 't'], .zoneName, 0), (['u', 't', 'c'], .zoneName, 0), (['z'], .zoneName, 0),
    (['g', 'm', 't'], .zoneName, 0), (['c', 'd', 't'], .zoneName, -5),
    (['c', 's', 't'], .zoneName, -6), (['e', 'd', 't'], .zoneName, -4),
    (['e', 's', 't'], .zoneName, -5), (['m', 'd', 't'], .zoneName, -6),
    (['m', 's', 't'], .zoneName, -7), (['p', 'd', 't'], .zoneName, -7),
    (['p', 's', 't'], .zoneName, -8), (['t'], .timeSeparator, 0) ]

/-- A character lowered the way word prefixes are (setting the bit of `0x20`). -/
def lowered (c : Char) : Char := Char.ofNat (c.toNat ||| 0x20)

/-- The word token of a word's characters: a known word matches on its first
three letters, and only a month name may be longer. -/
def wordToken (cs : List Char) : Token :=
  let length := (cs.map Text.widthOf).foldl (· + ·) 0
  let pre := (cs.take 3).map lowered
  match keywords.find? fun (k, kind, _) => k == pre && (length ≤ 3 || kind == .monthName) with
  | some (_, kind, v) => .word kind v length
  | none => .word .other 0 length

/-- The value of a run of digits: leading zeros skipped, then at most nine
significant digits. -/
def numeralValue (ds : List Char) : Nat :=
  ((ds.dropWhile (· == '0')).take 9).foldl (fun a c => 10 * a + (c.toNat - 48)) 0

/-- Whether a character may be part of a word. -/
def isWordChar (c : Char) : Bool := c.toNat ≥ 0x41 && !Text.isBlank c

/-- The rest of a text after a parenthesized part that starts it (nested
parentheses counted; an unclosed part runs to the end). -/
def skipParenthesized (depth : Nat) : List Char → List Char
  | [] => []
  | c :: rest =>
    if c == ')' then (if depth ≤ 1 then rest else skipParenthesized (depth - 1) rest)
    else if c == '(' then skipParenthesized (depth + 1) rest
    else skipParenthesized depth rest

/-- The tokens of a text, ending at its end or at a NUL character. -/
def tokens (fuel : Nat) (cs : List Char) : List Token :=
  match fuel, cs with
  | 0, _ => []
  | _, [] => []
  | fuel + 1, c :: rest =>
    if c == '\x00' then []
    else if c.isDigit then
      let (ds, rest) := (c :: rest).span Char.isDigit
      .number (numeralValue ds) ds.length :: tokens fuel rest
    else if c == ':' || c == '-' || c == '+' || c == '.' || c == ')' then
      .symbol c :: tokens fuel rest
    else if isWordChar c then
      let (w, rest) := (c :: rest).span isWordChar
      wordToken w :: tokens fuel rest
    else if Text.isBlank c then .space :: tokens fuel rest
    else if c == '(' then .unknown :: tokens fuel (skipParenthesized 1 rest)
    else .unknown :: tokens fuel rest

/-- The parts of a date read so far. -/
structure Fields where
  /-- Date parts, in the order read (at most three). -/
  day : List Int := []
  /-- A month given by name. -/
  namedMonth : Option Int := none
  /-- Whether the ISO form was read to its end. -/
  isoDate : Bool := false
  /-- Time parts: hour, minute, second, millisecond (at most four). -/
  time : List Int := []
  /-- The hour offset of `am`/`pm`. -/
  hourOffset : Option Int := none
  /-- The sign of the zone offset. -/
  zoneSign : Option Int := none
  /-- The hours of the zone offset. -/
  zoneHour : Option Int := none
  /-- The minutes of the zone offset. -/
  zoneMinute : Option Int := none

/-- Whether `x` lies in `lo … hi`. -/
def within (x lo hi : Int) : Bool := lo ≤ x && x ≤ hi

namespace Fields

/-- Adds a date part, if there is room. -/
def addDay (f : Fields) (n : Int) : Option Fields :=
  if f.day.length < 3 then some { f with day := f.day ++ [n] } else none

/-- Adds a time part, if there is room. -/
def addTime (f : Fields) (n : Int) : Option Fields :=
  if f.time.length < 4 then some { f with time := f.time ++ [n] } else none

/-- Adds a last time part and fills the rest with zeros. -/
def addFinalTime (f : Fields) (n : Int) : Option Fields :=
  (f.addTime n).map fun f => { f with time := f.time ++ List.replicate (4 - f.time.length) 0 }

/-- Whether the time expects `n` as its next part. -/
def timeExpects (f : Fields) (n : Int) : Bool :=
  (f.time.length == 1 && within n 0 59) || (f.time.length == 2 && within n 0 59) ||
    (f.time.length == 3 && within n 0 999)

/-- Whether the zone expects `n` as its minutes. -/
def zoneExpects (f : Fields) (n : Int) : Bool :=
  f.zoneHour.isSome && f.zoneMinute.isNone && within n 0 59

/-- Sets the zone to a whole number of hours. -/
def setZone (f : Fields) (hours : Int) : Fields :=
  let sign : Int := if hours < 0 then -1 else 1
  { f with zoneSign := some sign, zoneHour := some (hours * sign), zoneMinute := some 0 }

/-- Whether the zone is UTC. -/
def isUtc (f : Fields) : Bool := f.zoneHour == some 0 && f.zoneMinute == some 0

/-- The year, month (1-based) and day of the date parts. -/
def date? (f : Fields) : Option (Int × Int × Int) :=
  if f.day.isEmpty then none
  else
    let comp := f.day ++ List.replicate (3 - f.day.length) 1
    let c0 := comp.getD 0 1
    let c1 := comp.getD 1 1
    let c2 := comp.getD 2 1
    let (year, month, day) : Int × Int × Int :=
      match f.namedMonth with
      | none => if f.isoDate || !within c0 1 31 then (c0, c1, c2) else (c2, c0, c1)
      | some m => if !within c0 1 31 then (c0, m, c1) else (c1, m, c0)
    let year :=
      if f.isoDate then year
      else if within year 0 49 then year + 2000
      else if within year 50 99 then year + 1900
      else year
    if within year (-1073741824) 1073741823 && within month 1 12 && within day 1 31 then
      some (year, month, day)
    else none

/-- The milliseconds into the day of the time parts. -/
def timeOfDay? (f : Fields) : Option Int :=
  let comp := f.time ++ List.replicate (4 - f.time.length) 0
  let h := comp.getD 0 0
  let m := comp.getD 1 0
  let s := comp.getD 2 0
  let ms := comp.getD 3 0
  let h? : Option Int := match f.hourOffset with
    | some off => if within h 0 12 then some (h % 12 + off) else none
    | none => some h
  h?.bind fun h =>
    if (within h 0 23 && within m 0 59 && within s 0 59 && within ms 0 999) ||
        (h == 24 && m == 0 && s == 0 && ms == 0) then
      some (((h * 60 + m) * 60 + s) * 1000 + ms)
    else none

/-- The zone offset in seconds (none for local time), or a failure. The seconds of
the hours and minutes are added in 32-bit unsigned arithmetic, so they wrap around
at `2³²`; a total above `2³¹ - 1` fails. -/
def offset? (f : Fields) : Option (Option Int) :=
  match f.zoneSign with
  | none => some none
  | some sign =>
    let total := (f.zoneHour.getD 0 * 3600 + f.zoneMinute.getD 0 * 60) % 4294967296
    if total > 2147483647 then none else some (some (sign * total))

end Fields

/-- The next token, and the tokens after it. -/
def next : List Token → Token × List Token
  | [] => (.finish, [])
  | t :: rest => (t, rest)

/-- The next token, left in place. -/
def peek (ts : List Token) : Token := (next ts).1

/-- The tokens after a given symbol, if it comes next. -/
def skipSymbol (c : Char) : List Token → Option (List Token)
  | .symbol d :: rest => if d == c then some rest else none
  | _ => none

/-- The tokens with a given symbol dropped if it comes next. -/
def dropSymbol (c : Char) (ts : List Token) : List Token := (skipSymbol c ts).getD ts

/-- A number token of a given length, if it comes next. -/
def fixedNumber (length : Nat) (ts : List Token) : Option Nat :=
  match peek ts with
  | .number v l => if l == length then some v else none
  | _ => none

/-- Whether a token is a sign. -/
def Token.sign? : Token → Option Int
  | .symbol '+' => some 1
  | .symbol '-' => some (-1)
  | _ => none

/-- Whether a token is the zone word `z`. -/
def Token.isZ : Token → Bool
  | .word .zoneName 0 1 => true
  | _ => false

/-- How reading the ISO form ends: refused outright, or stopped at a token (the end
when the whole form was read) with the tokens after it and the parts read. -/
inductive IsoEnd where
  /-- The text cannot be a date. -/
  | refused
  /-- The form stopped at a token. -/
  | stopped (at_ : Token) (rest : List Token) (f : Fields)

/-- Milliseconds from a fraction's digits: its first three significant places. -/
def millisOf (value length : Nat) : Int :=
  if length == 1 then value * 100
  else if length == 2 then value * 10
  else if length ≤ 3 then value
  else value / Nat.pow 10 (min length 9 - 3)

/-- The time of the ISO form, after its `T`. -/
def isoTime (ts : List Token) (f : Fields) : IsoEnd :=
  match fixedNumber 2 ts with
  | none => .refused
  | some h =>
    if h > 24 then .refused
    else
      let ts := (next ts).2
      let f := { f with time := [h] }
      match skipSymbol ':' ts with
      | none => .refused
      | some ts =>
        match fixedNumber 2 ts with
        | none => .refused
        | some m =>
          if m > 59 || (h == 24 && m > 0) then .refused
          else
            let ts := (next ts).2
            let f := { f with time := [h, m] }
            let seconds : Option (List Token × Fields) :=
              match skipSymbol ':' ts with
              | none => some (ts, f)
              | some ts =>
                match fixedNumber 2 ts with
                | none => none
                | some s =>
                  if s > 59 || (h == 24 && s > 0) then none
                  else
                    let ts := (next ts).2
                    let f := { f with time := [h, m, s] }
                    match skipSymbol '.' ts with
                    | none => some (ts, f)
                    | some ts =>
                      match peek ts with
                      | .number v l =>
                        if h == 24 && v > 0 then none
                        else some ((next ts).2, { f with time := [h, m, s, millisOf v l] })
                      | _ => none
            match seconds with
            | none => .refused
            | some (ts, f) =>
              let zoned : Option (List Token × Fields) :=
                if (peek ts).isZ then some ((next ts).2, f.setZone 0)
                else
                  match (peek ts).sign? with
                  | none => some (ts, f)
                  | some sign =>
                    let ts := (next ts).2
                    let f := { f with zoneSign := some sign }
                    match fixedNumber 4 ts with
                    | some hm =>
                      if hm / 100 > 23 || hm % 100 > 59 then none
                      else
                        let zh : Int := (hm / 100 : Nat)
                        let zm : Int := (hm % 100 : Nat)
                        some ((next ts).2, { f with zoneHour := some zh, zoneMinute := some zm })
                    | none =>
                      match fixedNumber 2 ts with
                      | none => none
                      | some zh =>
                        if zh > 23 then none
                        else
                          match skipSymbol ':' (next ts).2 with
                          | none => none
                          | some ts =>
                            match fixedNumber 2 ts with
                            | some zm =>
                              if zm > 59 then none
                              else
                                let f := { f with zoneHour := some (zh : Int) }
                                some ((next ts).2, { f with zoneMinute := some (zm : Int) })
                            | none => none
              match zoned with
              | none => .refused
              | some (ts, f) =>
                match peek ts with
                | .finish => .stopped .finish ts { f with isoDate := true }
                | _ => .refused

/-- Reads as much of the ISO form as the tokens allow. -/
def readIso (ts : List Token) : IsoEnd :=
  let year : (List Token × Fields) ⊕ (Token × List Token) :=
    match (peek ts).sign? with
    | some sign =>
      let (signTok, ts) := next ts
      match fixedNumber 6 ts with
      | some y =>
        let ts := (next ts).2
        if sign < 0 && y == 0 then .inr (signTok, ts) else .inl (ts, { day := [sign * y] })
      | none => .inr (signTok, ts)
    | none =>
      match fixedNumber 4 ts with
      | some y => .inl ((next ts).2, { day := [(y : Int)] })
      | none => .inr (next ts)
  match year with
  | .inr (t, rest) => .stopped t rest {}
  | .inl (ts, f) =>
    let date : (List Token × Fields) ⊕ (Token × List Token × Fields) :=
      match skipSymbol '-' ts with
      | none => .inl (ts, f)
      | some ts =>
        match fixedNumber 2 ts with
        | some m =>
          if m < 1 || m > 12 then .inr ((next ts).1, (next ts).2, f)
          else
            let ts := (next ts).2
            let f := { f with day := f.day ++ [(m : Int)] }
            match skipSymbol '-' ts with
            | none => .inl (ts, f)
            | some ts =>
              match fixedNumber 2 ts with
              | some d =>
                if d < 1 || d > 31 then .inr ((next ts).1, (next ts).2, f)
                else .inl ((next ts).2, { f with day := f.day ++ [(d : Int)] })
              | none => .inr ((next ts).1, (next ts).2, f)
        | none => .inr ((next ts).1, (next ts).2, f)
    match date with
    | .inr (t, rest, f) => .stopped t rest f
    | .inl (ts, f) =>
      match peek ts with
      | .word .timeSeparator _ _ => isoTime (next ts).2 f
      | .finish => .stopped .finish ts { f.setZone 0 with isoDate := true }
      | _ => .stopped (next ts).1 (next ts).2 f

/-- Reads the tokens left after the ISO form by the lenient rules, from a token on;
none when they are refused. -/
def readLenient (fuel : Nat) (tok : Token) (ts : List Token) (f : Fields) (hasNumber : Bool) :
    Option Fields :=
  match fuel with
  | 0 => some f
  | fuel + 1 =>
    let go (ts : List Token) (f : Fields) (hasNumber : Bool) : Option Fields :=
      readLenient fuel (next ts).1 (next ts).2 f hasNumber
    match tok with
    | .finish => some f
    | .number n _ =>
      let n : Int := n
      match skipSymbol ':' ts with
      | some ts1 =>
        match skipSymbol ':' ts1 with
        | some ts2 =>
          if !f.time.isEmpty then none
          else (f.addTime n).bind fun f => (f.addTime 0).bind fun f => go ts2 f true
        | none => (f.addTime n).bind fun f => go (dropSymbol '.' ts1) f true
      | none =>
        let (dot, ts1) := match skipSymbol '.' ts with
          | some r => (true, r)
          | none => (false, ts)
        if dot && f.timeExpects n then
          match peek ts1 with
          | .number v l =>
            (f.addTime n).bind fun f => (f.addFinalTime (millisOf v l)).bind fun f =>
              go (next ts1).2 f true
          | _ => none
        else if f.zoneExpects n then go ts1 { f with zoneMinute := some n } true
        else if f.timeExpects n then
          (f.addFinalTime n).bind fun f =>
            match peek ts1 with
            | .finish | .space => go ts1 f true
            | t => if t.isZ || t.sign?.isSome then go ts1 f true else none
        else (f.addDay n).bind fun f => go (dropSymbol '-' ts1) f true
    | .word kind value _ =>
      if kind == .amPm && !f.time.isEmpty then go ts { f with hourOffset := some value } hasNumber
      else if kind == .monthName then go (dropSymbol '-' ts) { f with namedMonth := some value } hasNumber
      else if kind == .zoneName && hasNumber then go ts (f.setZone value) hasNumber
      else if hasNumber then none
      else
        match peek ts with
        | .number .. => none
        | _ => go ts f hasNumber
    | .symbol c =>
      match (Token.symbol c).sign? with
      | some sign =>
        if f.isUtc || !f.time.isEmpty then
          let f := { f with zoneSign := some sign }
          let (n, len, ts) : Nat × Nat × List Token := match peek ts with
            | .number v l => (v, l, (next ts).2)
            | _ => (0, 0, ts)
          let n : Int := n
          match peek ts with
          | .symbol ':' => go ts { f with zoneHour := some n, zoneMinute := none } true
          | _ =>
            if len == 1 || len == 2 then go ts { f with zoneHour := some n, zoneMinute := some 0 } true
            else if len == 3 || len == 4 then
              go ts { f with zoneHour := some (n / 100), zoneMinute := some (n % 100) } true
            else none
        else if hasNumber then none
        else go ts f hasNumber
      | none => if c == ')' && hasNumber then none else go ts f hasNumber
    | _ => go ts f hasNumber

/-- The farthest a time value may lie from the epoch, in ms. -/
def maxTimeMs : Int := 8640000000000000

/-- The time value a date text stands for, or not-a-number. -/
def readDate (s : String) : Float :=
  let ts := tokens (s.length + 1) s.toList
  let fields : Option Fields :=
    match readIso ts with
    | .refused => none
    | .stopped tok rest f => readLenient (ts.length + 1) tok rest f !f.day.isEmpty
  let value : Option Int := fields.bind fun f => do
    let (y, m, d) ← f.date?
    let t ← f.timeOfDay?
    let off ← f.offset?
    if y < -1000000 || y > 1000000 then none
    let date := (daysOfCivil ⟨y, m.toNat, 1⟩ + (d - 1)) * dayMs + t - (off.getD 0) * 1000
    if date < -maxTimeMs || date > maxTimeMs then none else some date
  match value with
  | some t => Float.ofInt t
  | none => Decimal.notANumber

end LaneGate.Clock
