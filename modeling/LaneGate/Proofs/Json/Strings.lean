import LaneGate.Json.Reader
import LaneGate.Json.Writer
import Mathlib
/-!
# Strings written and read back

A text is a list of UTF-16 units. It is held in a `String` by decoding it into
pieces (`Text.decodeUnits`): a well-formed pair or a unit outside the surrogate
range is a character, any other surrogate stands alone and travels in its carrier.
Each piece stands for the units it was decoded from (`Text.Piece.units`), so decoding
loses nothing (`Text.units_decodeUnits`), and reading the string back gives the text
(`Text.ofString_toString`).

`Json.quote` writes each piece as itself, as the carriers of its units, or as an
escape; `Json.readString` reads each of those back as the piece's units. Main
statement: `Json.readString_quote`, a quoted text reads back as exactly that text,
whatever follows the closing quote.
-/

namespace LaneGate

namespace Text

theorem toNat_ofNat_of_isValidChar {n : Nat} (h : n.isValidChar) : (Char.ofNat n).toNat = n := by
  simp [Char.ofNat, h, Char.ofNatAux, Char.toNat]

theorem toNat_lt_of_char (c : Char) : c.toNat < 0x110000 := by
  have h := c.valid
  simp only [UInt32.isValidChar, Nat.isValidChar] at h
  change c.val.toNat < 0x110000
  omega

theorem toUInt16_eq {n : Nat} {u : UInt16} (h : n = u.toNat) : n.toUInt16 = u := by
  subst h
  exact UInt16.ofNat_toNat

/-- A surrogate unit, high or low. -/
def IsSurrogate (w : UInt16) : Prop := 0xD800 ≤ w.toNat ∧ w.toNat ≤ 0xDFFF

/-! ## Pieces and their units -/

/-- The units a decoded piece stands for: one for a character of the Basic
Multilingual Plane and for an unpaired surrogate, a surrogate pair above it. -/
def Piece.units : Piece → List UInt16
  | .char c => if c.toNat < 0x10000 then [c.toNat.toUInt16] else Piece.held.unitsOf' c
  | .lone u => [u]

theorem units_single (u : UInt16) : (decodeUnits.single u).units = [u] := by
  unfold decodeUnits.single
  split
  · rfl
  · rename_i h
    have hu : u.toNat < 0x10000 := u.toNat_lt
    simp only [isHigh, isLow, Bool.or_eq_true, Bool.and_eq_true, decide_eq_true_eq, not_or,
      not_and, UInt16.le_iff_toNat_le] at h
    have hvalid : u.toNat.isValidChar := by
      unfold Nat.isValidChar
      simp only [UInt16.toNat_ofNat, Nat.reducePow, Nat.reduceMod] at h
      omega
    simp [Piece.units, toNat_ofNat_of_isValidChar hvalid, hu]

theorem units_pair {u l : UInt16} (h : (isHigh u && isLow l) = true) :
    (Piece.char (Char.ofNat (0x10000 + (u.toNat - 0xD800) * 1024 + (l.toNat - 0xDC00)))).units =
      [u, l] := by
  simp only [isHigh, isLow, Bool.and_eq_true, decide_eq_true_eq, UInt16.le_iff_toNat_le] at h
  simp only [UInt16.toNat_ofNat, Nat.reducePow, Nat.reduceMod] at h
  have hvalid : (0x10000 + (u.toNat - 0xD800) * 1024 + (l.toNat - 0xDC00)).isValidChar := by
    unfold Nat.isValidChar
    omega
  simp only [Piece.units, toNat_ofNat_of_isValidChar hvalid, Piece.held.unitsOf']
  rw [if_neg (by omega)]
  simp only [List.cons.injEq, and_true]
  exact ⟨toUInt16_eq (by omega), toUInt16_eq (by omega)⟩

/-- Decoding loses no unit. -/
theorem units_decodeUnits (us : List UInt16) : (decodeUnits us).flatMap Piece.units = us := by
  fun_induction decodeUnits us with
  | case1 => rfl
  | case2 u => simp [units_single]
  | case3 u l rest h ih => simp [units_pair h, ih]
  | case4 u l rest h ih =>
    rw [List.flatMap_cons, units_single, ih]
    rfl

theorem isSurrogate_of_single {w u : UInt16} (h : decodeUnits.single w = .lone u) : IsSurrogate u := by
  unfold decodeUnits.single at h
  split at h
  · rename_i hw
    cases h
    simp only [isHigh, isLow, Bool.or_eq_true, Bool.and_eq_true, decide_eq_true_eq,
      UInt16.le_iff_toNat_le, UInt16.toNat_ofNat, Nat.reducePow, Nat.reduceMod] at hw
    unfold IsSurrogate
    omega
  · cases h

/-- Decoding leaves alone only surrogates. -/
theorem isSurrogate_of_lone_mem {u : UInt16} {us : List UInt16} (h : Piece.lone u ∈ decodeUnits us) :
    IsSurrogate u := by
  fun_induction decodeUnits us with
  | case1 => cases h
  | case2 w =>
    rw [List.mem_singleton] at h
    exact isSurrogate_of_single h.symm
  | case3 w l rest hp ih =>
    rcases List.mem_cons.1 h with h | h
    · cases h
    · exact ih h
  | case4 w l rest hp ih =>
    rcases List.mem_cons.1 h with h | h
    · exact isSurrogate_of_single h.symm
    · exact ih h

/-! ## Carriers -/

theorem unitsOf_carrierOf {w : UInt16} (h : IsSurrogate w) : unitsOf (carrierOf w) = [w] := by
  have hw : w.toNat < 0x10000 := w.toNat_lt
  have hvalid : (0x100000 + w.toNat).isValidChar := by
    unfold Nat.isValidChar IsSurrogate at *
    omega
  have hc : (carrierOf w).toNat = 0x100000 + w.toNat := toNat_ofNat_of_isValidChar hvalid
  have hcar : isCarrier (carrierOf w) = true := by
    simp only [isCarrier, hc, Bool.and_eq_true, decide_eq_true_eq]
    unfold IsSurrogate at h
    omega
  rw [unitsOf, if_neg (by omega), if_pos hcar, hc]
  simp only [List.cons.injEq, and_true]
  exact toUInt16_eq (by omega)

/-- The two units of a character above the Basic Multilingual Plane are surrogates. -/
theorem isSurrogate_of_mem_unitsOf' {c : Char} (h : 0x10000 ≤ c.toNat) :
    ∀ w ∈ Piece.held.unitsOf' c, IsSurrogate w := by
  have hc := toNat_lt_of_char c
  intro w hw
  simp only [Piece.held.unitsOf', List.mem_cons, List.not_mem_nil, or_false] at hw
  rcases hw with rfl | rfl
  · simp only [IsSurrogate, Nat.toUInt16, UInt16.toNat_ofNat', Nat.reducePow]
    omega
  · simp only [IsSurrogate, Nat.toUInt16, UInt16.toNat_ofNat', Nat.reducePow]
    omega

theorem carrier_big {c : Char} (h : isCarrier c = true) : 0x10000 ≤ c.toNat := by
  simp only [isCarrier, Bool.and_eq_true, decide_eq_true_eq] at h
  omega

/-- A character that is no carrier is encoded as the units it stands for. -/
theorem unitsOf_of_not_carrier {c : Char} (h : isCarrier c = false) : unitsOf c = (Piece.char c).units := by
  rw [unitsOf, Piece.units]
  split
  · rfl
  · rw [if_neg (by simp [h])]
    rfl

theorem flatMap_held_char (c : Char) : (Piece.held (.char c)).flatMap unitsOf = (Piece.char c).units := by
  by_cases hcar : isCarrier c = true
  · rw [Piece.held, if_pos hcar, List.flatMap_map, Piece.units, if_neg (by have := carrier_big hcar; omega)]
    have hsur := isSurrogate_of_mem_unitsOf' (carrier_big hcar)
    rw [List.flatMap_congr (g := fun w => [w]) (fun w hw => unitsOf_carrierOf (hsur w hw)),
      List.flatMap_singleton']
  · rw [Piece.held, if_neg hcar, List.flatMap_singleton,
      unitsOf_of_not_carrier (Bool.eq_false_iff.2 hcar)]

theorem flatMap_held_of_mem {p : Piece} {us : List UInt16} (hp : p ∈ decodeUnits us) :
    p.held.flatMap unitsOf = p.units := by
  cases p with
  | char c => exact flatMap_held_char c
  | lone u =>
    rw [Piece.held, List.flatMap_singleton, unitsOf_carrierOf (isSurrogate_of_lone_mem hp)]
    rfl

/-- Reading a text's string back gives the text. -/
theorem ofString_toString (t : Text) : ofString t.toString = t := by
  obtain ⟨us⟩ := t
  show Text.mk ((String.ofList ((decodeUnits us).flatMap Piece.held)).toList.flatMap unitsOf) = ⟨us⟩
  rw [String.toList_ofList, List.flatMap_assoc,
    List.flatMap_congr (fun p hp => flatMap_held_of_mem hp), units_decodeUnits]

end Text

namespace Json

open Text

/-! ## Reading a quoted text -/

theorem toList_join (l : List String) : (String.join l).toList = l.flatMap String.toList := by
  -- `join` folds from the left; carry the text joined so far
  have h : ∀ (s : String) (l : List String),
      (l.foldl (fun r s => r ++ s) s).toList = s.toList ++ l.flatMap String.toList := by
    intro s l
    induction l generalizing s with
    | nil => simp
    | cons x xs ih => simp [ih, String.toList_append]
  exact h "" l

/-- What `quote` writes for one piece of a text. -/
def writtenPiece : Piece → String
  | .char c => if isCarrier c then String.ofList (Piece.held (.char c)) else escapeChar c
  | .lone u => "\\u" ++ hex4 u.toNat

theorem toList_quote (t : Text) :
    (quote t).toList = '"' :: t.pieces.flatMap (fun p => (writtenPiece p).toList) ++ ['"'] := by
  show ("\"" ++ String.join (t.pieces.map writtenPiece) ++ "\"").toList = _
  rw [String.toList_append, String.toList_append, toList_join, List.flatMap_map]
  rfl

/-- A character other than a quote, a backslash or a control character is read as its units. -/
theorem readString_plain {c : Char} (hq : c ≠ '"') (hb : c ≠ '\\') (hc : 0x20 ≤ c.toNat)
    (acc : List UInt16) (cs : List Char) :
    readString acc (c :: cs) = readString ((unitsOf c).reverse ++ acc) cs := by
  rw [readString.eq_def]
  split
  · cases ‹c :: cs = []›
  · cases ‹c :: cs = '"' :: _›
    exact absurd rfl hq
  · cases ‹c :: cs = '\\' :: 'u' :: _›
    exact absurd rfl hb
  · cases ‹c :: cs = '\\' :: _›
    exact absurd rfl hb
  · cases ‹c :: cs = _ :: _›
    rw [if_neg (by omega)]

theorem readString_hex {a b c d : Char} {u : UInt16} (h : hexUnit a b c d = some u)
    (acc : List UInt16) (cs : List Char) :
    readString acc ('\\' :: 'u' :: a :: b :: c :: d :: cs) = readString (u :: acc) cs := by
  simp only [readString, h]

theorem hexValue_digitChar : ∀ d, d < 16 → hexValue (Nat.digitChar d) = some d := by decide

/-- The four hex digits `hex4` writes for a unit, first to last. -/
theorem toDigits_sixteen {n : Nat} (h : n < 65536) :
    List.replicate (4 - (Nat.toDigits 16 n).length) '0' ++ Nat.toDigits 16 n =
      [Nat.digitChar (n / 4096), Nat.digitChar (n / 256 % 16), Nat.digitChar (n / 16 % 16),
        Nat.digitChar (n % 16)] := by
  have hb : 1 < 16 := by decide
  -- peel one hex digit off the end at a time, as `toDigits` writes them
  have step : ∀ m, 16 ≤ m → Nat.toDigits 16 m = Nat.toDigits 16 (m / 16) ++ [Nat.digitChar (m % 16)] :=
    fun m hm => Nat.toDigits_of_base_le hb hm
  rcases Nat.lt_or_ge n 16 with h1 | h1
  · rw [Nat.toDigits_of_lt_base h1]
    have e1 : n / 4096 = 0 := by omega
    have e2 : n / 256 % 16 = 0 := by omega
    have e3 : n / 16 % 16 = 0 := by omega
    have e4 : n % 16 = n := by omega
    rw [e1, e2, e3, e4]
    rfl
  rcases Nat.lt_or_ge n 256 with h2 | h2
  · rw [step n h1, Nat.toDigits_of_lt_base (by omega : n / 16 < 16)]
    have e1 : n / 4096 = 0 := by omega
    have e2 : n / 256 % 16 = 0 := by omega
    have e3 : n / 16 % 16 = n / 16 := by omega
    rw [e1, e2, e3]
    rfl
  rcases Nat.lt_or_ge n 4096 with h3 | h3
  · rw [step n h1, step (n / 16) (by omega), Nat.toDigits_of_lt_base (by omega : n / 16 / 16 < 16)]
    have e1 : n / 4096 = 0 := by omega
    have e2 : n / 256 % 16 = n / 16 / 16 := by omega
    rw [e1, e2]
    rfl
  · rw [step n h1, step (n / 16) (by omega), step (n / 16 / 16) (by omega),
      Nat.toDigits_of_lt_base (by omega : n / 16 / 16 / 16 < 16)]
    have e1 : n / 4096 = n / 16 / 16 / 16 := by omega
    have e2 : n / 256 % 16 = n / 16 / 16 % 16 := by omega
    rw [e1, e2]
    rfl

/-- A `\u` escape of a unit reads back as the unit. -/
theorem readString_hex4 {n : Nat} (h : n < 65536) (acc : List UInt16) (cs : List Char) :
    readString acc (("\\u" ++ hex4 n).toList ++ cs) = readString (n.toUInt16 :: acc) cs := by
  have hvalue : hexUnit (Nat.digitChar (n / 4096)) (Nat.digitChar (n / 256 % 16))
      (Nat.digitChar (n / 16 % 16)) (Nat.digitChar (n % 16)) = some n.toUInt16 := by
    simp only [hexUnit, hexValue_digitChar _ (by omega : n / 4096 < 16),
      hexValue_digitChar _ (by omega : n / 256 % 16 < 16), hexValue_digitChar _ (by omega : n / 16 % 16 < 16),
      hexValue_digitChar _ (by omega : n % 16 < 16)]
    have e : ((n / 4096 * 16 + n / 256 % 16) * 16 + n / 16 % 16) * 16 + n % 16 = n := by omega
    show some (((n / 4096 * 16 + n / 256 % 16) * 16 + n / 16 % 16) * 16 + n % 16).toUInt16 = _
    rw [e]
  rw [String.toList_append, hex4, String.toList_ofList, toDigits_sixteen h, String.toList_ofList]
  exact readString_hex hvalue acc cs

/-- Each piece `quote` writes reads back as the piece's units. -/
theorem readString_writtenPiece (p : Piece) (acc : List UInt16) (cs : List Char) :
    readString acc ((writtenPiece p).toList ++ cs) = readString (p.units.reverse ++ acc) cs := by
  cases p with
  | lone u =>
    rw [writtenPiece, readString_hex4 u.toNat_lt, toUInt16_eq rfl]
    rfl
  | char c =>
    rw [writtenPiece]
    split
    · -- a character of the carrier range travels as the carriers of its two units
      rename_i hcar
      rw [Piece.held, if_pos hcar, String.toList_ofList, Piece.units,
        if_neg (by have := carrier_big hcar; omega)]
      have hsur := isSurrogate_of_mem_unitsOf' (carrier_big hcar)
      generalize Piece.held.unitsOf' c = ws at hsur ⊢
      induction ws generalizing acc with
      | nil => rfl
      | cons w ws ih =>
        have hw := hsur w List.mem_cons_self
        have hvalid : (0x100000 + w.toNat).isValidChar := by
          unfold Nat.isValidChar IsSurrogate at *
          omega
        have hc : (carrierOf w).toNat = 0x100000 + w.toNat := toNat_ofNat_of_isValidChar hvalid
        rw [List.map_cons, List.cons_append,
          readString_plain (fun h => by rw [h] at hc; simp at hc; omega)
            (fun h => by rw [h] at hc; simp at hc; omega) (by omega),
          unitsOf_carrierOf hw, ih _ (fun v hv => hsur v (List.mem_cons_of_mem _ hv))]
        simp
    · rename_i hcar
      have hnc : isCarrier c = false := Bool.eq_false_iff.2 hcar
      unfold escapeChar
      split
      all_goals first
        | rfl
        | (rename_i hq hb h8 h12 hn hr ht
           split
           · rename_i hlow
             have hlt : c.toNat < 65536 := by omega
             rw [readString_hex4 hlt, Piece.units, if_pos hlt]
             rfl
           · rename_i hlow
             rw [String.toList_singleton, List.singleton_append,
               readString_plain hq hb (by omega), unitsOf_of_not_carrier hnc])

/-- The pieces of a text, written one after another, read back as their units. -/
theorem readString_pieces (ps : List Piece) (acc : List UInt16) (cs : List Char) :
    readString acc (ps.flatMap (fun p => (writtenPiece p).toList) ++ '"' :: cs) =
      some (⟨acc.reverse ++ ps.flatMap Piece.units⟩, cs) := by
  induction ps generalizing acc with
  | nil => simp [readString]
  | cons p ps ih =>
    rw [List.flatMap_cons, List.append_assoc, readString_writtenPiece, ih]
    simp

/-- **A quoted text reads back as that text**, and reading stops after its closing
quote. -/
theorem readString_quote (t : Text) (cs : List Char) :
    readString [] ((quote t).toList.tail ++ cs) = some (t, cs) := by
  rw [toList_quote, List.cons_append, List.tail_cons, List.append_assoc, List.singleton_append, readString_pieces]
  simp only [List.reverse_nil, List.nil_append]
  rw [pieces, units_decodeUnits]

end Json

end LaneGate
