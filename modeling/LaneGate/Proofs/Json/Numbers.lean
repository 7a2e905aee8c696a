import LaneGate.Proofs.Decimal.Nearest
import LaneGate.Decimal.Format
import LaneGate.Json.Reader
/-!
# Numbers written and read back

`numberText` writes the shortest digits of a double, laid out with or without a
point and an exponent; `readNumber` reads a sign, integer digits, a fraction and an
exponent, and takes the double nearest to the decimal. Every layout is one the
reader takes whole (`readNumber_layout`), and the decimal it reads has the value of
the digits, which lies in the double's rounding interval, so it reads as the
double (`readNumber_numberText`). The one exception is the negative zero, written
`0` and read as zero (`unsignZero`).

What follows a number must not continue it: no digit, point or exponent mark
(`NumberEnd`). JSON puts only a comma, a bracket, a brace or the end there.
-/

namespace LaneGate.Json

open Decimal

/-! ## The stages of the reader -/

/-- What may follow a number without being read as part of it: nothing, or a
character that is no digit, point or exponent mark. -/
def NumberEnd : List Char → Prop
  | [] => True
  | c :: _ => c.isDigit = false ∧ c ≠ '.' ∧ c ≠ 'e' ∧ c ≠ 'E'

/-- The fraction as written: a point and its digits, or nothing for none. -/
def fracText (frac : List Char) : List Char := if frac = [] then [] else '.' :: frac

/-- The exponent as written: `e`, its sign and its digits, or nothing for none. -/
def expText : Option Int → List Char
  | none => []
  | some x => 'e' :: (if x ≥ 0 then '+' else '-') :: Nat.toDigits 10 x.natAbs

/-- Nothing but a digit continues a run of digits. -/
def NoDigitHead (rest : List Char) : Prop := ∀ c ∈ rest.head?, c.isDigit = false

theorem NumberEnd.noDigitHead {rest : List Char} (h : NumberEnd rest) : NoDigitHead rest := by
  cases rest with
  | nil => intro c hc; cases hc
  | cons c cs => intro d hd; cases hd; exact h.1

theorem spanDigits_append {ds rest : List Char} (hds : ∀ c ∈ ds, c.isDigit = true)
    (hrest : NoDigitHead rest) : spanDigits (ds ++ rest) = (ds, rest) := by
  induction ds with
  | nil =>
    cases rest with
    | nil => rfl
    | cons c cs =>
      have hc : c.isDigit = false := hrest c rfl
      simp [spanDigits, hc]
  | cons d ds ih =>
    have hd : d.isDigit = true := hds d List.mem_cons_self
    have := ih (fun c hc => hds c (List.mem_cons_of_mem _ hc))
    simp only [spanDigits, Prod.mk.injEq] at this ⊢
    simp [hd, this]

/-- The integer digits: a lone zero, or a run of digits from a nonzero one. -/
def IntDigits (int : List Char) : Prop :=
  int = ['0'] ∨ ∃ c t, int = c :: t ∧ '1' ≤ c ∧ c ≤ '9' ∧ ∀ d ∈ int, d.isDigit = true

theorem integerDigits_append {int rest : List Char} (hint : IntDigits int) (hr : NoDigitHead rest) :
    integerDigits (int ++ rest) = some (int, rest) := by
  rcases hint with rfl | ⟨c, t, rfl, hlo, hhi, hd⟩
  · rfl
  · have hc : c ≠ '0' := by
      rintro rfl
      exact absurd hlo (by decide)
    rw [List.cons_append, integerDigits.eq_def]
    split
    · rename_i h
      cases h
      exact absurd rfl hc
    · rename_i h
      obtain ⟨rfl, rfl⟩ := List.cons.inj h
      rw [if_pos ⟨hlo, hhi⟩, ← List.cons_append, spanDigits_append hd hr]
    · rename_i h
      cases h

theorem fractionDigits_append {frac rest : List Char} (hd : ∀ c ∈ frac, c.isDigit = true)
    (hr : NoDigitHead rest) (hpt : ∀ c ∈ rest.head?, c ≠ '.') :
    fractionDigits (fracText frac ++ rest) = some (frac, rest) := by
  unfold fracText
  split
  · rename_i h
    subst h
    rw [List.nil_append, fractionDigits.eq_def]
    split
    · exact absurd rfl (hpt '.' (by simp_all))
    · rfl
  · rename_i h
    rw [List.cons_append, fractionDigits, spanDigits_append hd hr]
    simp [List.isEmpty_iff, h]

theorem exponentPart_append {ex : Option Int} {rest : List Char} (hr : NumberEnd rest) :
    exponentPart (expText ex ++ rest) = some (ex.getD 0, rest) := by
  cases ex with
  | none =>
    cases rest with
    | nil => rfl
    | cons c cs =>
      obtain ⟨-, -, he, hE⟩ := hr
      simp [expText, exponentPart, he, hE]
  | some x =>
    have hd : ∀ c ∈ Nat.toDigits 10 x.natAbs, c.isDigit = true :=
      fun c hc => Nat.isDigit_of_mem_toDigits (by norm_num) (by norm_num) hc
    have hne : (Nat.toDigits 10 x.natAbs).isEmpty = false := by
      cases h : Nat.toDigits 10 x.natAbs with
      | nil => exact absurd h Nat.toDigits_ne_nil
      | cons _ _ => rfl
    have hval : digitsValue (Nat.toDigits 10 x.natAbs) = x.natAbs := Nat.ofDigitChars_ten_toDigits
    by_cases hx : x ≥ 0
    · simp only [expText, if_pos hx, List.cons_append, exponentPart]
      simp [spanDigits_append hd hr.noDigitHead, hval, hne]
      omega
    · simp only [expText, if_neg hx, List.cons_append, exponentPart]
      simp [spanDigits_append hd hr.noDigitHead, hval, hne, abs_of_neg (show x < 0 by omega)]

/-- **The reader takes a written number whole**: a sign, integer digits, a fraction
and an exponent read as the decimal of the integer and fraction digits, scaled by
the exponent less the fraction's length. -/
theorem readNumber_parts (neg : Bool) (int frac : List Char) (ex : Option Int) {rest : List Char}
    (hint : IntDigits int) (hfrac : ∀ c ∈ frac, c.isDigit = true) (hr : NumberEnd rest) :
    readNumber ((if neg then ['-'] else []) ++ int ++ fracText frac ++ expText ex ++ rest) =
      some (ofDecimal neg (digitsValue (int ++ frac)) (ex.getD 0 - frac.length), rest) := by
  have hexp : NoDigitHead (expText ex ++ rest) ∧ ∀ c ∈ (expText ex ++ rest).head?, c ≠ '.' := by
    cases ex with
    | none =>
      cases rest with
      | nil => exact ⟨fun c hc => (by cases hc), fun c hc => (by cases hc)⟩
      | cons c cs =>
        exact ⟨fun d hd => by cases hd; exact hr.1, fun d hd => by cases hd; exact hr.2.1⟩
    | some x => exact ⟨fun c hc => by cases hc; rfl, fun c hc => by cases hc; decide⟩
  have hfr : NoDigitHead (fracText frac ++ (expText ex ++ rest)) := by
    unfold fracText
    split
    · exact hexp.1
    · intro c hc
      cases hc
      rfl
  have hsign : numberSign ((if neg then ['-'] else []) ++ (int ++ (fracText frac ++ (expText ex ++ rest)))) =
      (neg, int ++ (fracText frac ++ (expText ex ++ rest))) := by
    cases neg with
    | true => rfl
    | false =>
      rcases hint with rfl | ⟨c, t, rfl, hlo, hhi, -⟩
      · rfl
      · have hc : c ≠ '-' := by
          rintro rfl
          exact absurd hlo (by decide)
        simp only [Bool.false_eq_true, if_false, List.nil_append, List.cons_append]
        unfold numberSign
        split
        · rename_i h
          exact absurd (List.cons.inj h).1 hc
        · rfl
  unfold readNumber
  simp only [List.append_assoc]
  rw [hsign]
  simp only [integerDigits_append hint hfr, Option.bind_eq_bind, Option.bind_some,
    fractionDigits_append hfrac hexp.1 hexp.2, exponentPart_append hr, Option.pure_def]

end LaneGate.Json

namespace LaneGate.Decimal

/-! ## Digits -/

/-- The number that digits and a point position stand for. -/
def Digits.value (d : Digits) : ℚ := Json.digitsValue d.digits * 10 ^ (d.point - d.digits.length)

/-- Digits as the shortest decimal has them: one at least, the first not zero. -/
def Digits.Lead (d : Digits) : Prop :=
  ∃ c t, d.digits = c :: t ∧ '1' ≤ c ∧ c ≤ '9' ∧ ∀ x ∈ d.digits, x.isDigit = true

theorem digitChar_lead : ∀ s, s < 10 → 0 < s → '1' ≤ Nat.digitChar s ∧ Nat.digitChar s ≤ '9' := by
  decide

/-- The digits of a positive number start with a nonzero one. -/
theorem toDigits_lead {s : Nat} (hs : 0 < s) :
    ∃ c t, Nat.toDigits 10 s = c :: t ∧ '1' ≤ c ∧ c ≤ '9' := by
  induction s using Nat.strong_induction_on with
  | _ s ih =>
    rcases Nat.lt_or_ge s 10 with h | h
    · rw [Nat.toDigits_of_lt_base h]
      exact ⟨_, [], rfl, digitChar_lead s h hs⟩
    · -- the first digit is that of the number without its last digit
      rw [Nat.toDigits_of_base_le (by norm_num) h]
      obtain ⟨c, t, ht, hc⟩ := ih (s / 10) (by omega) (by omega)
      exact ⟨c, t ++ [Nat.digitChar (s % 10)], by rw [ht]; rfl, hc⟩

theorem digitsValue_eq (ds : List Char) : Json.digitsValue ds = Nat.ofDigitChars 10 ds 0 := rfl

/-- Trailing zeros scale the value of digits by a power of ten. -/
theorem digitsValue_append_zeros (ds : List Char) (z : Nat) :
    Json.digitsValue (ds ++ List.replicate z '0') = 10 ^ z * Json.digitsValue ds := by
  rw [digitsValue_eq, digitsValue_eq, Nat.ofDigitChars_append, Nat.ofDigitChars_replicate_zero]

/-- Leading zeros add nothing to the value of digits. -/
theorem digitsValue_zeros_append (z : Nat) (ds : List Char) :
    Json.digitsValue (List.replicate z '0' ++ ds) = Json.digitsValue ds := by
  rw [digitsValue_eq, digitsValue_eq, Nat.ofDigitChars_append, Nat.ofDigitChars_replicate_zero,
    Nat.mul_zero]

/-- A list is what is left after dropping its trailing zeros, then the zeros. -/
theorem strip_zeros (ds : List Char) :
    ds = (ds.reverse.dropWhile (· == '0')).reverse ++
      List.replicate (ds.reverse.takeWhile (· == '0')).length '0' := by
  have hz : (ds.reverse.takeWhile (· == '0')).reverse =
      List.replicate (ds.reverse.takeWhile (· == '0')).length '0' := by
    rw [List.eq_replicate_iff, List.length_reverse]
    refine ⟨rfl, fun c hc => ?_⟩
    have := List.mem_takeWhile_imp (List.mem_reverse.1 hc)
    simpa using this
  rw [← hz, ← List.reverse_append, List.takeWhile_append_dropWhile, List.reverse_reverse]

/-- The digits of a positive number, trailing zeros dropped, lead with a nonzero one. -/
theorem ofScaled_lead {s : Nat} (hs : 0 < s) (p : Int) : (Digits.ofScaled s p).Lead := by
  obtain ⟨c, t, hct, hc⟩ := toDigits_lead hs
  have hsplit := strip_zeros (Nat.toDigits 10 s)
  unfold Digits.ofScaled Digits.Lead
  dsimp only
  generalize ((Nat.toDigits 10 s).reverse.dropWhile (· == '0')).reverse = stripped at hsplit ⊢
  generalize ((Nat.toDigits 10 s).reverse.takeWhile (· == '0')).length = z at hsplit
  rw [hct] at hsplit
  cases stripped with
  | nil =>
    rw [List.nil_append] at hsplit
    have : c ∈ List.replicate z '0' := by rw [← hsplit]; exact List.mem_cons_self
    rw [List.eq_of_mem_replicate this] at hc
    exact absurd hc.1 (by decide)
  | cons c' t' =>
    have hsplit' := hsplit
    rw [List.cons_append] at hsplit'
    obtain ⟨hcc, -⟩ := List.cons.inj hsplit'
    refine ⟨c', t', rfl, (hcc ▸ hc).1, (hcc ▸ hc).2, fun x hx => Nat.isDigit_of_mem_toDigits (b := 10) (n := s) (by norm_num)
      (by norm_num) ?_⟩
    rw [hct, hsplit]
    exact List.mem_append_left _ hx

/-- Dropping trailing zeros moves the point, not the value. -/
theorem ofScaled_value (s : Nat) (p : Int) : (Digits.ofScaled s p).value = s * 10 ^ p := by
  have hsplit := strip_zeros (Nat.toDigits 10 s)
  have hval : Json.digitsValue (Nat.toDigits 10 s) = s := Nat.ofDigitChars_ten_toDigits
  unfold Digits.ofScaled Digits.value
  dsimp only
  generalize ((Nat.toDigits 10 s).reverse.dropWhile (· == '0')).reverse = stripped at hsplit ⊢
  generalize ((Nat.toDigits 10 s).reverse.takeWhile (· == '0')).length = z at hsplit
  have hlen : (Nat.toDigits 10 s).length = stripped.length + z := by
    rw [hsplit, List.length_append, List.length_replicate]
  rw [hsplit, digitsValue_append_zeros] at hval
  rw [hlen, show ((stripped.length + z : Nat) : Int) + p - stripped.length = (z : Int) + p by push_cast; ring,
    zpow_add₀ (by norm_num), zpow_natCast, ← mul_assoc, ← hval]
  push_cast
  ring

end LaneGate.Decimal

namespace LaneGate.Json

open Decimal

theorem isDigit_of_mem_zeros {z : Nat} {x : Char} (h : x ∈ zeros z) : x.isDigit = true := by
  rw [List.eq_of_mem_replicate h]
  rfl

theorem toList_sign (e : Int) :
    (if e ≥ 0 then "+" else "-").toList = [if e ≥ 0 then '+' else '-'] := by
  split <;> rfl

/-- **Every layout of digits is read whole**, as a decimal with the digits' value. -/
theorem readNumber_layout (neg : Bool) {d : Digits} (hd : d.Lead) {rest : List Char}
    (hr : NumberEnd rest) :
    ∃ n p, readNumber ((if neg then ['-'] else []) ++ d.layout.toList ++ rest) =
      some (ofDecimal neg n p, rest) ∧ (n : ℚ) * 10 ^ p = d.value := by
  obtain ⟨c, t, hct, hlo, hhi, hdig⟩ := hd
  have hk : (d.digits.length : Int) = t.length + 1 := by rw [hct]; simp
  unfold Digits.layout Digits.value
  dsimp only
  by_cases h1 : (d.digits.length : Int) ≤ d.point ∧ d.point ≤ 21
  · rw [if_pos h1]
    have hint : IntDigits (d.digits ++ zeros (d.point - d.digits.length).toNat) := by
      refine Or.inr ⟨c, t ++ zeros _, by rw [hct]; rfl, hlo, hhi, fun x hx => ?_⟩
      rcases List.mem_append.1 hx with hx | hx
      · exact hdig x hx
      · exact isDigit_of_mem_zeros hx
    have h := readNumber_parts neg _ [] none hint (fun x hx => by cases hx) hr
    simp only [fracText, expText, if_true, List.append_nil] at h
    refine ⟨_, _, by rw [String.toList_ofList]; simpa only [List.append_assoc, List.cons_append, List.nil_append] using h, ?_⟩
    rw [zeros, digitsValue_append_zeros]
    push_cast
    rw [Option.getD_none, List.length_nil, Nat.cast_zero, sub_zero, zpow_zero, mul_one,
      ← zpow_natCast, Int.toNat_of_nonneg (by omega)]
    ring
  rw [if_neg h1]
  by_cases h2 : 0 < d.point ∧ d.point ≤ 21
  · -- the point among the digits
    rw [if_pos h2]
    have hj : 0 < d.point.toNat ∧ d.point.toNat < d.digits.length := by omega
    have hint : IntDigits (d.digits.take d.point.toNat) := by
      refine Or.inr ⟨c, t.take (d.point.toNat - 1), ?_, hlo, hhi,
        fun x hx => hdig x (List.mem_of_mem_take hx)⟩
      rw [hct, show d.point.toNat = d.point.toNat - 1 + 1 by omega, List.take_succ_cons]
      rfl
    have hne : d.digits.drop d.point.toNat ≠ [] := by
      simp only [ne_eq, List.drop_eq_nil_iff, not_le]
      exact hj.2
    have h := readNumber_parts neg _ (d.digits.drop d.point.toNat) none hint
      (fun x hx => hdig x (List.mem_of_mem_drop hx)) hr
    simp only [fracText, hne, if_false, expText, List.append_nil] at h
    refine ⟨_, _, by rw [String.toList_ofList]; simpa only [List.append_assoc, List.cons_append, List.nil_append] using h, ?_⟩
    have hexp : (0 : Int) - ((d.digits.length - d.point.toNat : Nat) : Int) = d.point - d.digits.length := by
      omega
    rw [List.take_append_drop, Option.getD_none, List.length_drop, hexp]
  rw [if_neg h2]
  by_cases h3 : -6 < d.point ∧ d.point ≤ 0
  · -- the point before the digits, after zeros
    rw [if_pos h3]
    have hne : zeros (-d.point).toNat ++ d.digits ≠ [] := by
      rw [hct]
      simp
    have h := readNumber_parts neg ['0'] (zeros (-d.point).toNat ++ d.digits) none (Or.inl rfl)
      (fun x hx => by
        rcases List.mem_append.1 hx with hx | hx
        · exact isDigit_of_mem_zeros hx
        · exact hdig x hx) hr
    simp only [fracText, hne, if_false, expText, List.append_nil] at h
    rw [show ['0'] ++ (zeros (-d.point).toNat ++ d.digits) =
      List.replicate ((-d.point).toNat + 1) '0' ++ d.digits by
        rw [zeros, List.replicate_succ]; rfl, digitsValue_zeros_append] at h
    refine ⟨_, _, by rw [String.toList_ofList]; simpa only [List.append_assoc, List.cons_append, List.nil_append] using h, ?_⟩
    have hexp : Option.getD none (0 : Int) - ((zeros (-d.point).toNat ++ d.digits).length : Int) =
        d.point - d.digits.length := by
      simp only [Option.getD_none, List.length_append, zeros, List.length_replicate]
      push_cast
      omega
    rw [hexp]
  · -- one digit, the rest after a point, and the exponent
    rw [if_neg h3]
    have hfrac : ∀ x ∈ t, x.isDigit = true := fun x hx => hdig x (by rw [hct]; exact List.mem_cons_of_mem _ hx)
    have h := readNumber_parts neg [c] t (some (d.point - 1))
      (Or.inr ⟨c, [], rfl, hlo, hhi, fun x hx => hdig x (by rw [hct]; simp_all)⟩) hfrac hr
    simp only [expText] at h
    generalize (if neg then ['-'] else []) = sgn at h ⊢
    have key : ∀ m : String, m.toList = [c] ++ fracText t →
        readNumber (sgn ++ (m ++ "e" ++ (if d.point - 1 ≥ 0 then "+" else "-") ++
          toString (d.point - 1).natAbs).toList ++ rest) =
        some (ofDecimal neg (digitsValue ([c] ++ t)) ((some (d.point - 1)).getD 0 - t.length), rest) := by
      intro m hm
      have hdigits : (toString (d.point - 1).natAbs).toList = Nat.toDigits 10 (d.point - 1).natAbs :=
        Nat.toList_repr
      have he : "e".toList = ['e'] := rfl
      rw [String.toList_append, String.toList_append, String.toList_append, hm, he, toList_sign, hdigits]
      simpa only [List.append_assoc, List.cons_append, List.nil_append, List.singleton_append] using h
    have hexp : (some (d.point - 1)).getD 0 - (t.length : Int) = d.point - ((c :: t).length : Int) := by
      rw [Option.getD_some, List.length_cons]
      push_cast
      ring
    refine ⟨digitsValue ([c] ++ t), (some (d.point - 1)).getD 0 - t.length, ?_, ?_⟩
    · split
      next hnil => simp [hct] at hnil
      next c' hone =>
        rw [hct, List.cons.injEq] at hone
        obtain ⟨rfl, rfl⟩ := hone
        exact key _ (by simp [fracText])
      next c' t' hmany hcons =>
        rw [hct, List.cons.injEq] at hcons
        obtain ⟨rfl, rfl⟩ := hcons
        have ht : t ≠ [] := fun ht => by simp_all
        exact key _ (by simp [fracText, ht])
    · rw [hct, hexp, List.singleton_append]

/-! ## Doubles written and read back -/

/-- A double with the sign of a zero dropped: what its text reads back as. -/
def unsignZero (x : Float) : Float := if (Binary.ofFloat x).mant = 0 then 0.0 else x

theorem isNaN_of_isFinite {x : Float} (hx : isFinite x = true) : isNaN x = false := by
  unfold isFinite at hx
  unfold isNaN
  simp only [bne_iff_ne, ne_eq] at hx
  simp [hx]

theorem toList_minus (neg : Bool) : (if neg then "-" else "").toList = if neg then ['-'] else [] := by
  split <;> rfl

/-- **A finite double's text reads back as the double**, the sign of a zero aside. -/
theorem readNumber_numberText {x : Float} (hx : isFinite x = true) {rest : List Char}
    (hr : NumberEnd rest) : readNumber ((numberText x).toList ++ rest) = some (unsignZero x, rest) := by
  unfold numberText unsignZero
  rw [if_neg (by rw [isNaN_of_isFinite hx]; decide), if_neg (by rw [hx]; decide)]
  dsimp only
  by_cases hm : (Binary.ofFloat x).mant = 0
  · -- a zero of either sign is written `0`
    rw [if_pos hm, if_pos hm]
    have h := readNumber_parts false ['0'] [] none (Or.inl rfl) (fun c hc => by cases hc) hr
    have hzero : ofDecimal false (digitsValue (['0'] ++ [])) ((none : Option Int).getD 0 -
        ([] : List Char).length) = 0.0 := rfl
    rw [hzero] at h
    rw [show "0".toList = ['0'] from rfl]
    simpa only [fracText, expText, if_true, Bool.false_eq_true, if_false, List.append_nil,
      List.nil_append] using h
  · rw [if_neg hm, if_neg hm]
    have hv := valid_ofFloat hx hm
    obtain ⟨hpos, hlt, hlo, hhi, -⟩ := hv
    obtain ⟨s, p, hs, hsh, hholds⟩ := shortest_holds hpos hlt hlo hhi
    have hlead : (shortest (Binary.ofFloat x).mant (Binary.ofFloat x).exp).Lead := by
      rw [hsh]
      exact ofScaled_lead hs p
    obtain ⟨n, q, hread, hval⟩ := readNumber_layout (Binary.ofFloat x).neg hlead hr
    have hholds' : (Rounding.of (Binary.ofFloat x).mant (Binary.ofFloat x).exp).Holds
        (Binary.ofFloat x).exp ((n : ℚ) * 10 ^ q) := by
      rw [hval, hsh, ofScaled_value]
      exact hholds
    have hx' := ofDecimal_of_holds (Binary.ofFloat x).neg (m := (Binary.ofFloat x).mant)
      (e := (Binary.ofFloat x).exp) (valid_ofFloat hx hm) hholds'
    rw [String.toList_append, toList_minus, hread, hx']
    exact congrArg (fun y => some (y, rest)) (toFloat_ofFloat x)

end LaneGate.Json
