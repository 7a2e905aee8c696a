/-!
# Texts as UTF-16 code units

Every length, cut and position of the service is counted in UTF-16 code units: a
character outside the Basic Multilingual Plane counts twice. Most texts are plain
`String`s and are measured with `Text.lengthOf`. A cut can fall between the two
halves of a surrogate pair, and the half that is left must survive into the answer;
a `Text` is the sequence of code units itself, so it can hold such a half.

A `String` cannot hold an unpaired surrogate, yet texts read from JSON may have
them and must come out unchanged. Inside a `String` a surrogate unit `u` is carried
by the code point `0x100000 + u` (U+10D800 to U+10DFFF, in the private use plane),
and every other character stands for its own encoding. A character of that range
itself (a surrogate pair whose code point falls there) is held as its two units,
each in its carrier: a high carrier followed by a low one never stands for two
unpaired surrogates, since read from units they would make a pair. `Text.toString`
puts carriers in, and `Text.ofString` and `Text.lengthOf` read them back as the
single unit each stands for, so `Text.ofString` undoes `Text.toString`.

Text from outside (a line read, a line written) has every character as itself:
`Text.ofScalars` and `Text.toScalars` convert, the latter writing an unpaired
surrogate as U+FFFD. `Text.wellFormed` replaces unpaired surrogates by U+FFFD, and
`Text.utf8` gives the bytes a text leaves with.

Main statements: `Text.ofString` is the encoding whose length `Text.lengthOf` counts
(`Text.length_ofString`), and cutting a text keeps a prefix (`Text.cut_append`).
-/

namespace LaneGate

/-- A sequence of UTF-16 code units, possibly with unpaired surrogates. -/
structure Text where
  /-- The code units, first to last. -/
  units : List UInt16
  deriving DecidableEq, Inhabited

namespace Text

/-- The character that carries an unpaired surrogate inside a `String`. -/
def carrierOf (u : UInt16) : Char := Char.ofNat (0x100000 + u.toNat)

/-- Whether a character carries an unpaired surrogate. -/
def isCarrier (c : Char) : Bool := 0x10D800 ≤ c.toNat && c.toNat ≤ 0x10DFFF

/-- The UTF-16 encoding of one character: one unit in the Basic Multilingual Plane
(or the surrogate a carrier stands for), a high and a low surrogate above it. -/
def unitsOf (c : Char) : List UInt16 :=
  if c.toNat < 0x10000 then [c.toNat.toUInt16]
  else if isCarrier c then [(c.toNat - 0x100000).toUInt16]
  else
    let v := c.toNat - 0x10000
    [(0xD800 + v / 1024).toUInt16, (0xDC00 + v % 1024).toUInt16]

/-- The number of UTF-16 code units of a character. -/
def widthOf (c : Char) : Nat :=
  if c.toNat < 0x10000 || isCarrier c then 1 else 2

theorem length_unitsOf (c : Char) : (unitsOf c).length = widthOf c := by
  unfold unitsOf widthOf
  by_cases h : c.toNat < 0x10000
  · simp [h]
  · by_cases hc : isCarrier c <;> simp [h, hc]

/-- The total width of characters in UTF-16 code units. -/
def widthsOf : List Char → Nat
  | [] => 0
  | c :: cs => widthOf c + widthsOf cs

/-- The length of a string in UTF-16 code units. -/
def lengthOf (s : String) : Nat := widthsOf s.toList

/-- The empty text. -/
def empty : Text := ⟨[]⟩

/-- The UTF-16 encoding of a string. -/
def ofString (s : String) : Text := ⟨s.toList.flatMap unitsOf⟩

instance : Coe String Text := ⟨ofString⟩

instance : Append Text := ⟨fun a b => ⟨a.units ++ b.units⟩⟩

@[simp] theorem units_append (a b : Text) : (a ++ b).units = a.units ++ b.units := rfl

/-- The number of code units. -/
def length (t : Text) : Nat := t.units.length

@[simp] theorem length_append (a b : Text) : (a ++ b).length = a.length + b.length := by
  simp [length]

theorem length_ofString (s : String) : (ofString s).length = lengthOf s := by
  simp only [length, ofString, lengthOf]
  induction s.toList with
  | nil => rfl
  | cons c r ih => simp [List.length_append, length_unitsOf, widthsOf, ih]

/-- The first `n` code units (all of them when the text is shorter). -/
def take (t : Text) (n : Nat) : Text := ⟨t.units.take n⟩

/-- The prefix that ends `n` units from the end when `n` is negative, and after
`n` units otherwise, clamped to the text: the cut `0 .. n` of a text. -/
def cut (t : Text) (n : Int) : Text :=
  if n < 0 then t.take (t.length - n.natAbs) else t.take n.toNat

theorem cut_append (t : Text) (n : Int) : ∃ rest, cut t n ++ rest = t := by
  unfold cut take
  split
  · exact ⟨⟨t.units.drop (t.length - n.natAbs)⟩, by
      show Text.mk _ = t
      simp⟩
  · exact ⟨⟨t.units.drop n.toNat⟩, by
      show Text.mk _ = t
      simp⟩

/-- A position given as a number, read as a whole number of units: NaN is `0` and a
fraction is cut toward zero. -/
def positionOf (x : Float) : Int :=
  if x.isNaN then 0
  else if x < 0 then -((-x).toUInt64.toNat : Int)
  else (x.toUInt64.toNat : Int)

/-- The prefix up to a position given as a number (see `positionOf`); a negative
position counts from the end, and a position past either end is clamped. -/
def cutAtNumber (t : Text) (x : Float) : Text :=
  if x ≥ t.length.toFloat then t
  else if x ≤ -t.length.toFloat then t.take 0
  else t.cut (positionOf x)

/-- Whether a unit is a high (leading) surrogate. -/
def isHigh (u : UInt16) : Bool := 0xD800 ≤ u && u ≤ 0xDBFF

/-- Whether a unit is a low (trailing) surrogate. -/
def isLow (u : UInt16) : Bool := 0xDC00 ≤ u && u ≤ 0xDFFF

/-- One decoded piece: a character, or a surrogate that has no partner. -/
inductive Piece where
  /-- A character: a unit outside the surrogate range, or a well-formed pair. -/
  | char (c : Char)
  /-- An unpaired surrogate. -/
  | lone (u : UInt16)
  deriving DecidableEq

/-- Decoding: a high surrogate followed by a low one is one character, any other
surrogate stands alone. -/
def decodeUnits : List UInt16 → List Piece
  | [] => []
  | [u] => [single u]
  | u :: l :: rest =>
    if isHigh u && isLow l then
      .char (Char.ofNat (0x10000 + (u.toNat - 0xD800) * 1024 + (l.toNat - 0xDC00)))
        :: decodeUnits rest
    else single u :: decodeUnits (l :: rest)
where
  /-- A unit on its own: a character unless it is a surrogate. -/
  single (u : UInt16) : Piece :=
    if isHigh u || isLow u then .lone u else .char (Char.ofNat u.toNat)

/-- The pieces of a text. -/
def pieces (t : Text) : List Piece := decodeUnits t.units

/-- The characters that hold one decoded piece inside a string: a character of the
carrier range as the carriers of its two units, an unpaired surrogate as its
carrier, any other character as itself. -/
def Piece.held : Piece → List Char
  | .char c => if isCarrier c then (unitsOf' c).map carrierOf else [c]
  | .lone u => [carrierOf u]
where
  /-- The surrogate pair of a character above the Basic Multilingual Plane. -/
  unitsOf' (c : Char) : List UInt16 :=
    let v := c.toNat - 0x10000
    [(0xD800 + v / 1024).toUInt16, (0xDC00 + v % 1024).toUInt16]

/-- The string of a text, with carriers where a unit cannot stand as itself. -/
def toString (t : Text) : String := String.ofList (t.pieces.flatMap Piece.held)

/-- The UTF-16 encoding of characters that are all themselves (text from outside,
where no character is a carrier). -/
def ofScalars (s : String) : Text :=
  ⟨s.toList.flatMap fun c =>
    if c.toNat < 0x10000 then [c.toNat.toUInt16] else Piece.held.unitsOf' c⟩

/-- The characters of a text for the outside: every pair as its character, and an
unpaired surrogate as U+FFFD. -/
def toScalars (t : Text) : String :=
  String.ofList (t.pieces.map fun
    | .char c => c
    | .lone _ => '\uFFFD')

/-- The text with every unpaired surrogate replaced by U+FFFD. -/
def replaceLone (t : Text) : Text :=
  ⟨t.pieces.flatMap fun
    | .char c => if c.toNat < 0x10000 then [c.toNat.toUInt16] else Piece.held.unitsOf' c
    | .lone _ => [0xFFFD]⟩

/-- The UTF-8 bytes of a text, an unpaired surrogate as those of U+FFFD. -/
def utf8 (t : Text) : List UInt8 :=
  t.pieces.flatMap fun
    | .char c => String.utf8EncodeChar c
    | .lone _ => String.utf8EncodeChar '\uFFFD'

/-- Whether a list of units occurs in another as a contiguous part; the empty list
occurs everywhere. -/
def occursIn (needle : List UInt16) : List UInt16 → Bool
  | [] => needle.isEmpty
  | u :: rest => needle.isPrefixOf (u :: rest) || occursIn needle rest

/-- A string with every unpaired surrogate replaced by U+FFFD, as UTF-8 holds it. -/
def wellFormed (s : String) : String := (replaceLone (ofString s)).toString

instance : ToString Text := ⟨Text.toString⟩

/-- The texts joined with a separator between each two. -/
def join (sep : Text) : List Text → Text
  | [] => empty
  | [t] => t
  | t :: ts => t ++ sep ++ join sep ts

end Text

end LaneGate
