import LaneGate.Text.Units
/-!
# Blanks

The blank characters of the service: tab, line feed, vertical tab, form feed,
carriage return, space, no-break space, the Ogham space mark, the spaces from
U+2000 to U+200A, the line and paragraph separators, the narrow no-break space,
the medium mathematical space, the ideographic space and the byte order mark.
The next-line control U+0085 is not one of them.

Trimming removes blanks at both ends; `words` splits at every run of blanks and
drops the empty pieces.
-/

namespace LaneGate.Text

/-- Whether a code point is blank. All blanks lie in the Basic Multilingual Plane. -/
def isBlankCode (n : Nat) : Bool :=
  (0x9 ≤ n && n ≤ 0xD) || n == 0x20 || n == 0xA0 || n == 0x1680 ||
  (0x2000 ≤ n && n ≤ 0x200A) || n == 0x2028 || n == 0x2029 || n == 0x202F ||
  n == 0x205F || n == 0x3000 || n == 0xFEFF

/-- Whether a character is blank. -/
def isBlank (c : Char) : Bool := isBlankCode c.toNat

/-- Whether a code unit is a blank character. -/
def isBlankUnit (u : UInt16) : Bool := isBlankCode u.toNat

/-- The characters without the blanks at both ends. -/
def trimChars (cs : List Char) : List Char :=
  ((cs.dropWhile isBlank).reverse.dropWhile isBlank).reverse

/-- The text without the blanks at both ends. -/
def trim (s : String) : String := String.ofList (trimChars s.toList)

/-- Whether a text is empty once trimmed. -/
def isBlankText (s : String) : Bool := s.toList.all isBlank

/-- The pieces of a list between the elements that satisfy `p`, empty pieces kept. -/
def splitWhere (p : Char → Bool) : List Char → List (List Char)
  | [] => [[]]
  | c :: rest =>
    if p c then [] :: splitWhere p rest
    else
      match splitWhere p rest with
      | first :: more => (c :: first) :: more
      | [] => [[c]]

/-- The pieces between runs of blanks, empty pieces dropped. -/
def words (s : String) : List String :=
  ((splitWhere isBlank s.toList).filter (!·.isEmpty)).map String.ofList

end LaneGate.Text
