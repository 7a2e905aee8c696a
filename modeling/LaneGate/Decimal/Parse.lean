import LaneGate.Decimal.Read
import LaneGate.Text.Blank
/-!
# Numbers written as text

A setting read from the environment is a text; its number is read the way a
numeric literal is: blanks at both ends are ignored, an empty text is zero,
`Infinity` may carry a sign, a decimal has an optional sign, integer part,
fraction and exponent (at least one digit before or after the point), and an
integer may be written in hexadecimal, octal or binary after `0x`, `0o` or `0b`
(without a sign). Anything else is not a number. The result is the double nearest
to the value written.
-/

namespace LaneGate.Decimal

/-- The value of a digit in a radix up to 36. -/
def digitIn (radix : Nat) (c : Char) : Option Nat :=
  let v :=
    if '0' ≤ c && c ≤ '9' then some (c.toNat - 48)
    else if 'a' ≤ c && c ≤ 'z' then some (c.toNat - 87)
    else if 'A' ≤ c && c ≤ 'Z' then some (c.toNat - 55)
    else none
  v.bind fun d => if d < radix then some d else none

/-- The value of a nonempty run of digits in a radix. -/
def radixValue (radix : Nat) (cs : List Char) : Option Nat :=
  if cs.isEmpty then none
  else cs.foldlM (fun acc c => (digitIn radix c).map (acc * radix + ·)) 0

/-- The leading decimal digits of a list and the rest. -/
def spanDecimal (cs : List Char) : List Char × List Char := cs.span Char.isDigit

/-- The value of decimal digits (zero for none). -/
def decimalValue (cs : List Char) : Nat := cs.foldl (fun acc c => acc * 10 + (c.toNat - 48)) 0

/-- The exponent part of a decimal, after the mantissa: none, or `e`/`E`, an optional
sign and at least one digit, and nothing after it. -/
def exponentOf : List Char → Option Int
  | [] => some 0
  | e :: rest =>
    if e == 'e' || e == 'E' then
      let (neg, digits) := match rest with
        | '+' :: ds => (false, ds)
        | '-' :: ds => (true, ds)
        | ds => (false, ds)
      if !digits.isEmpty && digits.all Char.isDigit then
        let v : Int := decimalValue digits
        some (if neg then -v else v)
      else none
    else none

/-- The value of an unsigned decimal: integer part, optional fraction, optional
exponent. -/
def unsignedDecimal (neg : Bool) (cs : List Char) : Option Float :=
  if cs = "Infinity".toList then some (signed neg infinity)
  else
    let (whole, rest) := spanDecimal cs
    let (frac, rest) := match rest with
      | '.' :: more => spanDecimal more
      | _ => ([], rest)
    if whole.isEmpty && frac.isEmpty then none
    else
      (exponentOf rest).map fun e =>
        ofDecimal neg (decimalValue (whole ++ frac)) (e - frac.length)

/-- The number a text stands for, or not-a-number. -/
def ofText (s : String) : Float :=
  match Text.trimChars s.toList with
  | [] => 0
  | '0' :: r :: digits =>
    if r == 'x' || r == 'X' then radixNumber 16 digits
    else if r == 'o' || r == 'O' then radixNumber 8 digits
    else if r == 'b' || r == 'B' then radixNumber 2 digits
    else ((unsignedDecimal false ('0' :: r :: digits)).getD notANumber)
  | '+' :: cs => (unsignedDecimal false cs).getD notANumber
  | '-' :: cs => (unsignedDecimal true cs).getD notANumber
  | cs => (unsignedDecimal false cs).getD notANumber
where
  /-- The nearest double to an integer written in a radix. -/
  radixNumber (radix : Nat) (digits : List Char) : Float :=
    match radixValue radix digits with
    | some 0 => 0
    | some n => nearestRatio false n 1
    | none => notANumber

end LaneGate.Decimal
