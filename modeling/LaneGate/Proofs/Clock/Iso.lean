import Mathlib.Data.List.TakeDrop
import LaneGate.Clock.Reading
import LaneGate.Proofs.Clock.Calendar
import LaneGate.Proofs.Decimal.Whole
/-!
# Instants read back from their ISO text

An instant is written in the ISO form `YYYY-MM-DDTHH:mm:ss.sssZ`, with a sign and six
digits for a year outside 0 … 9999 (`Clock.iso`), and a date text is read by the
lenient reader (`Clock.readDate`): its tokens first, then the ISO form, then the
lenient rules for whatever the form leaves over. Main statement: every instant within
`8.64e15` ms of the epoch reads back as itself (`readDate_iso`), six-digit years
included.

The proof follows the reader.

* The text cuts into fourteen tokens, fifteen with a signed year (`tokens_iso`): each
  run of digits is one number token with its length, each separator a symbol, and
  `T` and `Z` are the words of the time separator and of the zone.
* The ISO form reads these tokens to the end and leaves nothing to the lenient rules
  (`readIso_isoTokens`), with the date, the time and the zone `Z` in place
  (`isoFields`).
* The parts give the instant back: the milliseconds of the time of day add up again,
  and counting days from the date undoes dating a count of days
  (`daysOfCivil_civilOfDays`).
-/

namespace LaneGate.Clock

/-! ### The range of dates -/

/-- A time value that names a millisecond names one within `8.64e15` ms of the epoch:
its magnitude is at most that, and truncation does not move it up. -/
theorem clip?_bounds {v : Float} {t : Int} (h : clip? v = some t) : -maxTimeMs ≤ t ∧ t ≤ maxTimeMs := by
  unfold clip? at h
  split at h
  · cases h
  · case isFalse hok =>
    simp only [Bool.or_eq_true, decide_eq_true_eq, not_or] at hok
    obtain ⟨⟨hnan, -⟩, hbig⟩ := hok
    have hnan : v.isNaN = false := by simpa using hnan
    have hr : Decimal.rank (8.64e15 : Float) = 8640000000000000 * 2 ^ 1074 := by
      rw [Decimal.rank, show (8.64e15 : Float).toModel.unpack =
        .finite .positive 8640000000000000 0 (by decide) from rfl]
      simp only [Decimal.rankOf, Float.Model.UnpackedFloat.Sign.apply]
      rw [Nat.cast_mul, Nat.cast_pow]
      rfl
    have hW : Decimal.Whole (8.64e15 : Float) 8640000000000000 :=
      Decimal.Integral.whole ⟨by decide, hr⟩ (by decide) (by decide)
    have ha := Decimal.signed_abs hnan
    have hle : v.abs ≤ 8.64e15 := by
      cases hc : decide (v.abs ≤ 8.64e15) with
      | true => exact of_decide_eq_true hc
      | false => exact absurd ((Decimal.not_le_iff_lt ha.isNaN hW.isNaN).1 (of_decide_eq_false hc)) hbig
    have hn : (v.abs.toUInt64.toNat : Int) ≤ 8640000000000000 := by
      exact_mod_cast Decimal.toUInt64_le hW ha hle
    injection h with h
    subst h
    unfold maxTimeMs
    split <;> omega

theorem Stamp.bounds (s : Stamp) : -maxTimeMs ≤ s.ms ∧ s.ms ≤ maxTimeMs := clip?_bounds s.dated

/-! ### Days from dates -/

/-- **Counting days from a date undoes dating a count of days.** -/
theorem daysOfCivil_civilOfDays (days : Int) : daysOfCivil (civilOfDays days) = days := by
  have hD := dayOfEra_le days
  have hcast := dayOfEra_cast days
  have hY := yearOfEra_le hD
  have hstart := (yearStart_le_and_le hD).1
  have hR := dayOfYear_le hD
  have hM := monthOfYear_le hR
  have hms := monthStart_le (dayOfYear (dayOfEra days))
  rw [civilOfDays_eq]
  unfold daysOfCivil monthOfIndex dayOfMonth
  unfold dayOfYear yearStart monthStart at *
  generalize eraOf days = E at *
  generalize dayOfEra days = D at *
  generalize yearOfEra D = Y at *
  generalize monthOfYear (D - (365 * Y + Y / 4 - Y / 100)) = M at *
  dsimp only
  have hE : ((Y : Int) + E * 400) / 400 = E := by omega
  have hyoe : ((Y : Int) + E * 400 - E * 400).toNat = Y := by omega
  -- March to December stay in the year of their era, January and February count to the next
  by_cases hM10 : M < 10
  · have h1 : ¬ (M + 3 ≤ 2) := by omega
    have h2 : M + 3 > 2 := by omega
    simp only [hM10, if_true, h1, if_false, h2, Int.add_zero, hE, hyoe, Nat.add_sub_cancel]
    omega
  · have h1 : M - 9 ≤ 2 := by omega
    have h2 : ¬ (M - 9 > 2) := by omega
    have h3 : M - 9 + 9 = M := by omega
    simp only [hM10, if_false, h1, if_true, h2, h3, Int.add_sub_cancel, hE, Int.toNat_natCast]
    omega

/-- A date's day counts one by one from the first of its month. -/
theorem daysOfCivil_first (c : Civil) (hd : 1 ≤ c.day) :
    daysOfCivil ⟨c.year, c.month, 1⟩ + (c.day - 1) = daysOfCivil c := by
  unfold daysOfCivil
  dsimp only
  by_cases h : c.month ≤ 2
  · simp only [h, if_true, show ¬ c.month > 2 by omega, if_false]
    omega
  · simp only [h, if_false, show c.month > 2 by omega, if_true]
    omega

/-- Within `8.64e15` ms of the epoch (`10⁸` days) a year has at most six digits, so a
year outside 0 … 9999 is written in full with its sign. -/
theorem dateOf_year_natAbs_lt {t : Int} (h1 : -maxTimeMs ≤ t) (h2 : t ≤ maxTimeMs) :
    (dateOf t).year.natAbs < 1000000 := by
  have hY := yearOfEra_le (dayOfEra_le (dayOf t))
  unfold dateOf
  rw [civilOfDays_eq]
  dsimp only
  unfold eraOf dayOf dayMs maxTimeMs at *
  split <;> omega

/-! ### Cutting a text into tokens -/

theorem span_digits {p : Char → Bool} {ds rest : List Char} (hd : ∀ c ∈ ds, p c = true)
    (hr : ∀ c ∈ rest.head?, p c = false) : (ds ++ rest).span p = (ds, rest) := by
  rw [List.span_eq_takeWhile_dropWhile, List.takeWhile_append_of_pos hd, List.dropWhile_append_of_pos hd]
  cases rest with
  | nil => simp
  | cons r rs =>
    have hr' : ¬ p r = true := by simp [hr r rfl]
    rw [List.takeWhile_cons_of_neg hr', List.dropWhile_cons_of_neg hr', List.append_nil]

theorem tokens_number {fuel : Nat} {ds rest : List Char} (hne : ds ≠ [])
    (hd : ∀ c ∈ ds, c.isDigit = true) (hr : ∀ c ∈ rest.head?, c.isDigit = false) :
    tokens (fuel + 1) (ds ++ rest) = .number (numeralValue ds) ds.length :: tokens fuel rest := by
  obtain ⟨c, cs, rfl⟩ := List.exists_cons_of_ne_nil hne
  have hc : c.isDigit = true := hd c List.mem_cons_self
  have h0 : (c == '\x00') = false := by
    cases h : c == '\x00'
    · rfl
    · rw [beq_iff_eq.1 h] at hc
      exact absurd hc (by decide)
  have hspan := span_digits hd hr
  rw [List.cons_append] at hspan ⊢
  simp only [tokens, h0, hc, hspan, Bool.false_eq_true, if_false, if_true]

theorem tokens_symbol {fuel : Nat} {c : Char} (hc : c = ':' ∨ c = '-' ∨ c = '+' ∨ c = '.')
    (rest : List Char) : tokens (fuel + 1) (c :: rest) = .symbol c :: tokens fuel rest := by
  rcases hc with rfl | rfl | rfl | rfl <;> rfl

theorem tokens_timeSeparator {fuel : Nat} {rest : List Char} (hr : ∀ c ∈ rest.head?, c.isDigit = true) :
    tokens (fuel + 1) ('T' :: rest) = .word .timeSeparator 0 1 :: tokens fuel rest := by
  have hw : ∀ c ∈ rest.head?, isWordChar c = false := by
    intro c hc
    have := hr c hc
    simp only [Char.isDigit, Bool.and_eq_true, decide_eq_true_eq] at this
    simp only [isWordChar, Bool.and_eq_false_iff, decide_eq_false_iff_not]
    left
    have h9 : c.toNat ≤ 57 := this.2
    omega
  have hT : ∀ c ∈ ['T'], isWordChar c = true := by
    intro c hc
    rw [List.mem_singleton.1 hc]
    decide
  have hspan := span_digits hT hw
  simp only [List.singleton_append] at hspan
  simp only [tokens, hspan]
  rfl

theorem tokens_zone {fuel : Nat} : tokens (fuel + 1) ['Z'] = [.word .zoneName 0 1] := by
  cases fuel <;> rfl

/-- Of at most nine digits, a numeral's value is the number its digits write. -/
theorem numeralValue_eq {ds : List Char} (h : ds.length ≤ 9) :
    numeralValue ds = Nat.ofDigitChars 10 ds 0 := by
  unfold numeralValue
  rw [List.take_of_length_le (Nat.le_trans (List.dropWhile_sublist _).length_le h)]
  clear h
  induction ds with
  | nil => rfl
  | cons c cs ih =>
    by_cases hc : c = '0'
    · subst hc
      rw [List.dropWhile_cons_of_pos (by decide), ih]
      rfl
    · rw [List.dropWhile_cons_of_neg (by simpa using hc)]
      rfl

theorem padded_isDigit (w n : Nat) : ∀ c ∈ (padded w n).toList, c.isDigit = true := by
  intro c hc
  rw [padded_toList, List.mem_append] at hc
  rcases hc with hc | hc
  · rw [List.eq_of_mem_replicate hc]
    rfl
  · exact Nat.isDigit_of_mem_toDigits (by decide) (by decide) hc

theorem padded_ne_nil (w n : Nat) : (padded w n).toList ≠ [] := by
  simp [padded_toList, Nat.toDigits_ne_nil]

theorem le_length_padded (w n : Nat) : w ≤ (padded w n).toList.length := by
  rw [padded_toList, List.length_append, List.length_replicate]
  omega

theorem numeralValue_padded {w n : Nat} (h : (padded w n).toList.length ≤ 9) :
    numeralValue (padded w n).toList = n := by
  rw [numeralValue_eq h, ofDigitChars_padded]

theorem toDigits_length_le {n w : Nat} (h : n < 10 ^ w) (hw : 0 < w) : (Nat.toDigits 10 n).length ≤ w :=
  (Nat.length_toDigits_le_iff (by decide) hw).2 h

/-- A number written with leading zeros, before a character that is no digit, is one
number token of the written length. -/
theorem tokens_padded {fuel w n : Nat} {rest : List Char} (hn : (Nat.toDigits 10 n).length ≤ w)
    (hw : w ≤ 9) (hr : ∀ c ∈ rest.head?, c.isDigit = false) :
    tokens (fuel + 1) ((padded w n).toList ++ rest) = .number n w :: tokens fuel rest := by
  rw [tokens_number (padded_ne_nil w n) (padded_isDigit w n) hr, numeralValue_padded (by rw [length_padded hn]; omega),
    length_padded hn]

theorem head_padded {w n : Nat} (rest : List Char) :
    ∀ c ∈ ((padded w n).toList ++ rest).head?, c.isDigit = true := by
  intro c hc
  obtain ⟨d, ds, hds⟩ := List.exists_cons_of_ne_nil (padded_ne_nil w n)
  rw [hds, List.cons_append, List.head?_cons, Option.mem_some_iff] at hc
  subst hc
  exact padded_isDigit w n _ (by rw [hds]; exact List.mem_cons_self)

theorem head_not_digit {c : Char} (hc : c.isDigit = false) (rest : List Char) :
    ∀ x ∈ (c :: rest).head?, x.isDigit = false := by
  intro x hx
  rw [List.head?_cons, Option.mem_some_iff] at hx
  rwa [← hx]

/-! ### The tokens of an instant's text -/

/-- The milliseconds of an instant into its UTC day. -/
def msOfDay (t : Int) : Nat := (t - dayOf t * dayMs).toNat

theorem iso_toList (t : Int) :
    (iso t).toList = (yearText (dateOf t).year).toList ++ '-' :: ((padded 2 (dateOf t).month).toList ++
      '-' :: ((padded 2 (dateOf t).day).toList ++ 'T' :: ((padded 2 (msOfDay t / 3600000)).toList ++
      ':' :: ((padded 2 (msOfDay t / 60000 % 60)).toList ++ ':' :: ((padded 2 (msOfDay t / 1000 % 60)).toList ++
      '.' :: ((padded 3 (msOfDay t % 1000)).toList ++ ['Z'])))))) := by
  simp only [iso, String.toList_append, dateOf, dayOf, msOfDay]
  simp only [List.append_assoc, show "-".toList = ['-'] from rfl, show "T".toList = ['T'] from rfl,
    show ":".toList = [':'] from rfl, show ".".toList = ['.'] from rfl, show "Z".toList = ['Z'] from rfl,
    List.cons_append, List.nil_append]

/-- The tokens of the year of an ISO text: four digits, or a sign and six digits. -/
def yearTokens (y : Int) : List Token :=
  if 0 ≤ y ∧ y ≤ 9999 then [.number y.toNat 4]
  else [.symbol (if y < 0 then '-' else '+'), .number y.natAbs 6]

/-- The tokens of an instant's ISO text, from its date and its milliseconds into the day. -/
def isoTokens (c : Civil) (ms : Nat) : List Token :=
  yearTokens c.year ++ [.symbol '-', .number c.month 2, .symbol '-', .number c.day 2,
    .word .timeSeparator 0 1, .number (ms / 3600000) 2, .symbol ':', .number (ms / 60000 % 60) 2,
    .symbol ':', .number (ms / 1000 % 60) 2, .symbol '.', .number (ms % 1000) 3, .word .zoneName 0 1]

theorem tokens_afterYear {fuel m d ms : Nat} (hm : m < 100) (hd : d < 100) (hms : ms < 86400000) :
    tokens (fuel + 13) ('-' :: ((padded 2 m).toList ++ '-' :: ((padded 2 d).toList ++
      'T' :: ((padded 2 (ms / 3600000)).toList ++ ':' :: ((padded 2 (ms / 60000 % 60)).toList ++
      ':' :: ((padded 2 (ms / 1000 % 60)).toList ++ '.' :: ((padded 3 (ms % 1000)).toList ++ ['Z']))))))) =
    [.symbol '-', .number m 2, .symbol '-', .number d 2,
      .word .timeSeparator 0 1, .number (ms / 3600000) 2, .symbol ':', .number (ms / 60000 % 60) 2,
      .symbol ':', .number (ms / 1000 % 60) 2, .symbol '.', .number (ms % 1000) 3, .word .zoneName 0 1] := by
  have two {n : Nat} (h : n < 100) : (Nat.toDigits 10 n).length ≤ 2 := toDigits_length_le h (by decide)
  have hsep {c : Char} (hc : c.isDigit = false) (rest : List Char) := head_not_digit hc rest
  rw [tokens_symbol (by simp), tokens_padded (two hm) (by decide) (hsep (by decide) _),
    tokens_symbol (by simp), tokens_padded (two hd) (by decide) (hsep (by decide) _),
    tokens_timeSeparator (head_padded _),
    tokens_padded (two (by omega)) (by decide) (hsep (by decide) _), tokens_symbol (by simp),
    tokens_padded (two (by omega)) (by decide) (hsep (by decide) _), tokens_symbol (by simp),
    tokens_padded (two (by omega)) (by decide) (hsep (by decide) _), tokens_symbol (by simp),
    tokens_padded (toDigits_length_le (n := ms % 1000) (w := 3) (by omega) (by decide)) (by decide)
      (hsep (by decide) _), tokens_zone]

/-- **An instant's text cuts into the tokens of its parts.** -/
theorem tokens_iso {fuel : Nat} (t : Int) (hy : (dateOf t).year.natAbs < 1000000) :
    tokens (fuel + 15) (iso t).toList = isoTokens (dateOf t) (msOfDay t) := by
  have hm : (dateOf t).month < 100 := by
    have := civilOfDays_month_le (dayOf t)
    unfold dateOf
    omega
  have hd : (dateOf t).day < 100 := by
    have := civilOfDays_day_le (dayOf t)
    unfold dateOf
    omega
  have hms : msOfDay t < 86400000 := by
    unfold msOfDay dayOf dayMs
    omega
  rw [iso_toList, isoTokens, yearTokens, yearText]
  by_cases h4 : 0 ≤ (dateOf t).year ∧ (dateOf t).year ≤ 9999
  · rw [if_pos h4, if_pos h4, tokens_padded (toDigits_length_le (by omega) (by decide)) (by decide)
      (head_not_digit (by decide) _), tokens_afterYear hm hd hms]
    rfl
  · -- a year outside 0 … 9999 is a sign and six digits
    have hsign : (if (dateOf t).year < 0 then "-" else "+").toList =
        [if (dateOf t).year < 0 then '-' else '+'] := by
      split <;> rfl
    rw [if_neg h4, if_neg h4, String.toList_append, hsign, List.singleton_append, List.cons_append,
      tokens_symbol (by split <;> simp), tokens_padded (toDigits_length_le hy (by decide)) (by decide)
      (head_not_digit (by decide) _), tokens_afterYear hm hd hms]
    rfl

/-! ### Reading the tokens -/

/-- The parts the ISO form reads from an instant's text: the date, the time to the
millisecond, and the zone `Z`. -/
def isoFields (c : Civil) (ms : Nat) : Fields :=
  { day := [c.year, (c.month : Int), (c.day : Int)], isoDate := true,
    time := [((ms / 3600000 : Nat) : Int), ((ms / 60000 % 60 : Nat) : Int), ((ms / 1000 % 60 : Nat) : Int),
      ((ms % 1000 : Nat) : Int)],
    zoneSign := some 1, zoneHour := some 0, zoneMinute := some 0 }

/-- **The ISO form reads an instant's tokens to the end.** -/
theorem readIso_isoTokens (c : Civil) (ms : Nat) (hm : 1 ≤ c.month ∧ c.month ≤ 12)
    (hd : 1 ≤ c.day ∧ c.day ≤ 31) (hms : ms < 86400000) :
    readIso (isoTokens c ms) = .stopped .finish [] (isoFields c ms) := by
  have hm0 : ¬ c.month = 0 := by omega
  have hm12 : ¬ 12 < c.month := by omega
  have hd0 : ¬ c.day = 0 := by omega
  have hd31 : ¬ 31 < c.day := by omega
  have hh : ¬ 24 < ms / 3600000 := by omega
  have hh24 : ¬ ms / 3600000 = 24 := by omega
  have hmi : ¬ 59 < ms / 60000 % 60 := by omega
  have hs : ¬ 59 < ms / 1000 % 60 := by omega
  unfold isoTokens yearTokens
  by_cases h4 : 0 ≤ c.year ∧ c.year ≤ 9999
  · rw [if_pos h4]
    simp [readIso, isoTime, peek, next, fixedNumber, skipSymbol, Token.sign?, Token.isZ, hm0, hm12, hd0, hd31, hh,
      hh24, hmi, hs, isoFields, Fields.setZone, millisOf, Int.toNat_of_nonneg h4.1]
  · rw [if_neg h4]
    by_cases hneg : c.year < 0
    · -- a year before 0: the sign `-` and the digits of its magnitude, which is not zero
      have hy0 : ¬ c.year.natAbs = 0 := by omega
      simp [readIso, isoTime, peek, next, fixedNumber, skipSymbol, Token.sign?, Token.isZ, hm0, hm12, hd0,
        hd31, hh, hh24, hmi, hs, isoFields, Fields.setZone, millisOf, hneg, hy0, abs_of_neg hneg]
    · simp [readIso, isoTime, peek, next, fixedNumber, skipSymbol, Token.sign?, Token.isZ, hm0, hm12, hd0,
        hd31, hh, hh24, hmi, hs, isoFields, Fields.setZone, millisOf, hneg, abs_of_nonneg (Int.not_lt.1 hneg)]

theorem date?_isoFields {c : Civil} (ms : Nat) (hm : 1 ≤ c.month ∧ c.month ≤ 12)
    (hd : 1 ≤ c.day ∧ c.day ≤ 31) (hy : c.year.natAbs < 1000000) :
    (isoFields c ms).date? = some (c.year, (c.month : Int), (c.day : Int)) := by
  have hyr : within c.year (-1073741824) 1073741823 = true := by
    simp only [within, Bool.and_eq_true, decide_eq_true_eq]
    omega
  have hmr : within (c.month : Int) 1 12 = true := by
    simp only [within, Bool.and_eq_true, decide_eq_true_eq]
    omega
  have hdr : within (c.day : Int) 1 31 = true := by
    simp only [within, Bool.and_eq_true, decide_eq_true_eq]
    omega
  simp [Fields.date?, isoFields, hyr, hmr, hdr]

theorem timeOfDay?_isoFields (c : Civil) {ms : Nat} (hms : ms < 86400000) :
    (isoFields c ms).timeOfDay? = some (ms : Int) := by
  simp [Fields.timeOfDay?, isoFields, within]
  omega

theorem offset?_isoFields (c : Civil) (ms : Nat) : (isoFields c ms).offset? = some (some 0) := rfl

/-- Nothing is left to the lenient rules after the whole ISO form. -/
theorem readLenient_finish (fuel : Nat) (f : Fields) (hasNumber : Bool) :
    readLenient (fuel + 1) .finish [] f hasNumber = some f := rfl

/-- **Every instant within `8.64e15` ms of the epoch reads back from its ISO text as
itself.** -/
theorem readDate_iso {t : Int} (h1 : -maxTimeMs ≤ t) (h2 : t ≤ maxTimeMs) :
    readDate (iso t) = Float.ofInt t := by
  have hy := dateOf_year_natAbs_lt h1 h2
  have hlen : (iso t).length + 1 = ((iso t).length - 14) + 15 := by
    have : 14 ≤ (iso t).length := by
      rw [← String.length_toList, iso_toList]
      simp only [List.length_append, List.length_cons]
      have := le_length_padded 2 (dateOf t).month
      have := le_length_padded 2 (dateOf t).day
      have := le_length_padded 2 (msOfDay t / 3600000)
      have := le_length_padded 2 (msOfDay t / 60000 % 60)
      have := le_length_padded 2 (msOfDay t / 1000 % 60)
      omega
    omega
  have hm : 1 ≤ (dateOf t).month := civilOfDays_month_pos _
  have hm' : (dateOf t).month ≤ 12 := civilOfDays_month_le _
  have hd : 1 ≤ (dateOf t).day := civilOfDays_day_pos _
  have hd' : (dateOf t).day ≤ 31 := civilOfDays_day_le _
  have hms : msOfDay t < 86400000 := by
    unfold msOfDay dayOf dayMs
    omega
  unfold readDate
  rw [hlen, tokens_iso t hy]
  dsimp only
  rw [readIso_isoTokens _ _ ⟨hm, hm'⟩ ⟨hd, hd'⟩ hms]
  dsimp only
  rw [readLenient_finish, Option.bind_some, date?_isoFields _ ⟨hm, hm'⟩ ⟨hd, hd'⟩ hy,
    timeOfDay?_isoFields _ hms, offset?_isoFields]
  have hdate : (daysOfCivil ⟨(dateOf t).year, ((dateOf t).month : Int).toNat, 1⟩ + ((dateOf t).day - 1)) *
      dayMs + (msOfDay t : Int) - (some (0 : Int)).getD 0 * 1000 = t := by
    rw [Int.toNat_natCast, daysOfCivil_first _ hd, dateOf, daysOfCivil_civilOfDays, Option.getD_some]
    unfold msOfDay dayOf dayMs
    omega
  have hyr : ¬ ((dateOf t).year < -1000000 ∨ (dateOf t).year > 1000000) := by omega
  have ht : ¬ (t < -maxTimeMs ∨ t > maxTimeMs) := by omega
  simp only [Option.bind_eq_bind, Option.bind_some, hdate]
  simp [hyr, ht]

/-- The time of every clock reading that names a date reads back from its ISO text. -/
theorem Stamp.readDate_iso (s : Stamp) : readDate (iso s.ms) = Float.ofInt s.ms :=
  Clock.readDate_iso s.bounds.1 s.bounds.2

end LaneGate.Clock
