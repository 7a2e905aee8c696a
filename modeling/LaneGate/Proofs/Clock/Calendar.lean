import LaneGate.Clock
/-!
# Calendar days and months of instants

`Clock.civilOfDays` turns a count of days since 1970-01-01 into a date of the
proleptic Gregorian calendar. It cuts the days into eras of 400 years (146097 days),
a day of an era into a year of the era (years starting on 1 March, so that the leap
day ends the year), and a day of that year into a month and a day of the month.
This module proves that the cut is a calendar:

* `Civil.dayKey_civilOfDays_lt`: later days have later dates, ordered by year, month
  and day (so no date is given to two days, `civilOfDays_injective`);
* `Civil.monthKey_civilOfDays_le`: the month (with its year) never goes back;
* `civilOfDays_month_pos` … `civilOfDays_day_le`: months are 1 … 12 and days 1 … 31.

An instant's day (`dayOf`: whole days since the epoch, rounded down) and its month
(`monthOf`, as `12 · year + month`) follow. The texts the ledger compares, the first
ten characters of the ISO form for the day (`dayText`) and the first seven for the
month (`monthText`), name days and months exactly while the year has four digits
(`dayText_eq_iff`, `monthText_eq_iff`); outside 0 … 9999 the year takes a sign and
six digits and the cuts fall elsewhere.
-/

namespace LaneGate.Clock

/-! ### Inside an era -/

/-- The year of its era that a day of an era falls in. -/
def yearOfEra (doe : Nat) : Nat := (doe - doe / 1460 + doe / 36524 - doe / 146096) / 365

/-- The first day of a year of an era. -/
def yearStart (yoe : Nat) : Nat := 365 * yoe + yoe / 4 - yoe / 100

/-- The day of its year (from 0 on 1 March) of a day of an era. -/
def dayOfYear (doe : Nat) : Nat := doe - yearStart (yearOfEra doe)

/-- The month of a day of the year, from 0 for March to 11 for February. -/
def monthOfYear (doy : Nat) : Nat := (5 * doy + 2) / 153

/-- The first day of a month of the year. -/
def monthStart (mp : Nat) : Nat := (153 * mp + 2) / 5

/-- The day of the month (from 1) of a day of the year. -/
def dayOfMonth (doy : Nat) : Nat := doy - monthStart (monthOfYear doy) + 1

/-- The position of a day of an era in the order of its dates: year, then month,
then day of the month, each in a field wide enough for the next. -/
def eraKey (doe : Nat) : Nat :=
  32 * (12 * yearOfEra doe + monthOfYear (dayOfYear doe)) + dayOfMonth (dayOfYear doe)

theorem yearOfEra_le {doe : Nat} (h : doe ≤ 146096) : yearOfEra doe ≤ 399 := by
  unfold yearOfEra
  omega

theorem yearOfEra_mono {doe doe' : Nat} (h : doe ≤ doe') : yearOfEra doe ≤ yearOfEra doe' := by
  unfold yearOfEra
  apply Nat.div_le_div_right
  omega

/-- A day of an era lies in the year `yearOfEra` names: at most 365 days after its
start. The century of the day fixes the year's century, which is what the count of
leap days needs. -/
theorem yearStart_le_and_le {doe : Nat} (h : doe ≤ 146096) :
    yearStart (yearOfEra doe) ≤ doe ∧ doe ≤ yearStart (yearOfEra doe) + 365 := by
  unfold yearStart
  by_cases hl : doe = 146096
  · subst hl
    decide
  · have hc : doe / 36524 ≤ 3 := by omega
    have h1 : doe / 146096 = 0 := by omega
    generalize hC : doe / 36524 = C at hc
    have hy : yearOfEra doe / 100 = C := by
      unfold yearOfEra
      omega
    unfold yearOfEra at hy ⊢
    omega

theorem dayOfYear_le {doe : Nat} (h : doe ≤ 146096) : dayOfYear doe ≤ 365 := by
  have := yearStart_le_and_le h
  unfold dayOfYear
  omega

theorem monthOfYear_le {doy : Nat} (h : doy ≤ 365) : monthOfYear doy ≤ 11 := by
  unfold monthOfYear
  omega

theorem monthStart_le (doy : Nat) : monthStart (monthOfYear doy) ≤ doy := by
  unfold monthStart monthOfYear
  omega

theorem monthOfYear_mono {doy doy' : Nat} (h : doy ≤ doy') : monthOfYear doy ≤ monthOfYear doy' := by
  unfold monthOfYear
  omega

theorem dayOfMonth_pos (doy : Nat) : 1 ≤ dayOfMonth doy := by
  unfold dayOfMonth
  omega

theorem dayOfMonth_le (doy : Nat) : dayOfMonth doy ≤ 31 := by
  unfold dayOfMonth monthStart monthOfYear
  omega

/-- Within a month, later days of the year are later days of the month. -/
theorem dayOfMonth_lt {doy doy' : Nat} (h : doy < doy') (hm : monthOfYear doy = monthOfYear doy') :
    dayOfMonth doy < dayOfMonth doy' := by
  have := monthStart_le doy
  rw [hm] at this
  unfold dayOfMonth
  rw [hm]
  omega

/-- The year and month of a day of an era never go back. -/
theorem monthIndex_mono {doe doe' : Nat} (h : doe ≤ doe') (h' : doe' ≤ 146096) :
    12 * yearOfEra doe + monthOfYear (dayOfYear doe) ≤
      12 * yearOfEra doe' + monthOfYear (dayOfYear doe') := by
  have hy := yearOfEra_mono h
  have hm := monthOfYear_le (dayOfYear_le (Nat.le_trans h h'))
  rcases Nat.lt_or_eq_of_le hy with hlt | heq
  · -- an earlier year ends with February, before the first month of a later one
    omega
  · have := yearStart_le_and_le (Nat.le_trans h h')
    have hd : dayOfYear doe ≤ dayOfYear doe' := by
      unfold dayOfYear
      rw [heq] at this ⊢
      omega
    have := monthOfYear_mono hd
    omega

/-- Later days of an era have later dates. -/
theorem eraKey_lt {doe doe' : Nat} (h : doe < doe') (h' : doe' ≤ 146096) : eraKey doe < eraKey doe' := by
  have hd := dayOfMonth_le (dayOfYear doe)
  have hi := monthIndex_mono (Nat.le_of_lt h) h'
  unfold eraKey
  rcases Nat.lt_or_eq_of_le hi with hlt | heq
  · omega
  · -- the same month: the year is the same, and so the day of the month moves on
    have hy : yearOfEra doe = yearOfEra doe' := by
      have := monthOfYear_le (dayOfYear_le (Nat.le_trans (Nat.le_of_lt h) h'))
      have := monthOfYear_le (dayOfYear_le h')
      omega
    have hs := yearStart_le_and_le (Nat.le_trans (Nat.le_of_lt h) h')
    have hdoy : dayOfYear doe < dayOfYear doe' := by
      unfold dayOfYear
      rw [hy] at hs ⊢
      omega
    have hm : monthOfYear (dayOfYear doe) = monthOfYear (dayOfYear doe') := by omega
    have := dayOfMonth_lt hdoy hm
    omega

theorem eraKey_le {doe : Nat} (h : doe ≤ 146096) : eraKey doe ≤ 153599 := by
  have := yearOfEra_le h
  have := monthOfYear_le (dayOfYear_le h)
  have := dayOfMonth_le (dayOfYear doe)
  unfold eraKey
  omega

/-! ### Eras -/

/-- The era of a count of days since 1970-01-01 (eras start on 1 March 0000). -/
def eraOf (days : Int) : Int := (days + 719468) / 146097

/-- The day of its era of a count of days. -/
def dayOfEra (days : Int) : Nat := (days + 719468 - eraOf days * 146097).toNat

theorem dayOfEra_le (days : Int) : dayOfEra days ≤ 146096 := by
  unfold dayOfEra eraOf
  omega

theorem dayOfEra_cast (days : Int) : (dayOfEra days : Int) = days + 719468 - eraOf days * 146097 := by
  unfold dayOfEra eraOf
  omega

/-- The month of `civilOfDays`, from the month of the year that starts in March. -/
def monthOfIndex (mp : Nat) : Nat := if mp < 10 then mp + 3 else mp - 9

theorem civilOfDays_eq (days : Int) :
    civilOfDays days =
      ⟨(yearOfEra (dayOfEra days) : Int) + eraOf days * 400 +
          (if monthOfIndex (monthOfYear (dayOfYear (dayOfEra days))) ≤ 2 then 1 else 0),
        monthOfIndex (monthOfYear (dayOfYear (dayOfEra days))),
        dayOfMonth (dayOfYear (dayOfEra days))⟩ := rfl

theorem civilOfDays_month_pos (days : Int) : 1 ≤ (civilOfDays days).month := by
  rw [civilOfDays_eq]
  simp only [monthOfIndex]
  split <;> omega

theorem civilOfDays_month_le (days : Int) : (civilOfDays days).month ≤ 12 := by
  have := monthOfYear_le (dayOfYear_le (dayOfEra_le days))
  rw [civilOfDays_eq]
  simp only [monthOfIndex]
  split <;> omega

theorem civilOfDays_day_pos (days : Int) : 1 ≤ (civilOfDays days).day := by
  rw [civilOfDays_eq]
  exact dayOfMonth_pos _

theorem civilOfDays_day_le (days : Int) : (civilOfDays days).day ≤ 31 := by
  rw [civilOfDays_eq]
  exact dayOfMonth_le _

/-- A month as one number, `12 · year + month`: months in calendar order. -/
def Civil.monthKey (c : Civil) : Int := 12 * c.year + c.month

/-- A date as one number: dates in calendar order, for days of at most 31. -/
def Civil.dayKey (c : Civil) : Int := 32 * c.monthKey + c.day

/-- The month of a day, counted from the era: a January or February belongs to the
next calendar year but stays in the era's year of its March. -/
theorem Civil.monthKey_civilOfDays (days : Int) :
    (civilOfDays days).monthKey =
      4800 * eraOf days + 12 * yearOfEra (dayOfEra days) + monthOfYear (dayOfYear (dayOfEra days)) + 3 := by
  have := monthOfYear_le (dayOfYear_le (dayOfEra_le days))
  rw [civilOfDays_eq]
  simp only [Civil.monthKey, monthOfIndex]
  split <;> split <;> omega

theorem Civil.dayKey_civilOfDays (days : Int) :
    (civilOfDays days).dayKey = 153600 * eraOf days + 96 + eraKey (dayOfEra days) := by
  have h := Civil.monthKey_civilOfDays days
  simp only [Civil.dayKey] at h ⊢
  rw [h]
  have : (civilOfDays days).day = dayOfMonth (dayOfYear (dayOfEra days)) := by rw [civilOfDays_eq]
  rw [this]
  unfold eraKey
  push_cast
  omega

theorem eraOf_mono {days days' : Int} (h : days ≤ days') : eraOf days ≤ eraOf days' := by
  unfold eraOf
  exact Int.ediv_le_ediv (by decide) (by omega)

/-- **Later days have later dates.** -/
theorem Civil.dayKey_civilOfDays_lt {days days' : Int} (h : days < days') :
    (civilOfDays days).dayKey < (civilOfDays days').dayKey := by
  rw [Civil.dayKey_civilOfDays, Civil.dayKey_civilOfDays]
  have he := eraOf_mono (Int.le_of_lt h)
  have hc := dayOfEra_cast days
  have hc' := dayOfEra_cast days'
  have hk := eraKey_le (dayOfEra_le days)
  rcases Int.lt_or_eq_of_le he with hlt | heq
  · -- a later era starts after every date of an earlier one
    omega
  · have : dayOfEra days < dayOfEra days' := by omega
    have := eraKey_lt this (dayOfEra_le days')
    omega

/-- No date is given to two days. -/
theorem civilOfDays_injective {days days' : Int} (h : civilOfDays days = civilOfDays days') :
    days = days' := by
  rcases Int.lt_trichotomy days days' with hlt | heq | hgt
  · have := Civil.dayKey_civilOfDays_lt hlt
    rw [h] at this
    exact absurd this (Int.lt_irrefl _)
  · exact heq
  · have := Civil.dayKey_civilOfDays_lt hgt
    rw [h] at this
    exact absurd this (Int.lt_irrefl _)

/-- **The month never goes back.** -/
theorem Civil.monthKey_civilOfDays_le {days days' : Int} (h : days ≤ days') :
    (civilOfDays days).monthKey ≤ (civilOfDays days').monthKey := by
  rw [Civil.monthKey_civilOfDays, Civil.monthKey_civilOfDays]
  have he := eraOf_mono h
  have hc := dayOfEra_cast days
  have hc' := dayOfEra_cast days'
  have hy := yearOfEra_le (dayOfEra_le days)
  have hm := monthOfYear_le (dayOfYear_le (dayOfEra_le days))
  rcases Int.lt_or_eq_of_le he with hlt | heq
  · omega
  · have : dayOfEra days ≤ dayOfEra days' := by omega
    have := monthIndex_mono this (dayOfEra_le days')
    omega


/-! ### Numbers with leading zeros -/

theorem padded_toList (w n : Nat) :
    (padded w n).toList = List.replicate (w - (Nat.toDigits 10 n).length) '0' ++ Nat.toDigits 10 n := by
  simp [padded]

/-- A number written with leading zeros reads back as itself. -/
theorem ofDigitChars_padded (w n : Nat) : Nat.ofDigitChars 10 (padded w n).toList 0 = n := by
  rw [padded_toList, Nat.ofDigitChars_append, Nat.ofDigitChars_replicate_zero, Nat.mul_zero,
    Nat.ofDigitChars_ten_toDigits]

theorem length_padded {w n : Nat} (h : (Nat.toDigits 10 n).length ≤ w) : (padded w n).toList.length = w := by
  rw [padded_toList, List.length_append, List.length_replicate]
  omega

theorem toDigits_length_le_two {n : Nat} (h : n < 100) : (Nat.toDigits 10 n).length ≤ 2 :=
  (Nat.length_toDigits_le_iff (by decide) (by decide)).2 (by simpa using h)

theorem toDigits_length_le_four {n : Nat} (h : n < 10000) : (Nat.toDigits 10 n).length ≤ 4 :=
  (Nat.length_toDigits_le_iff (by decide) (by decide)).2 (by simpa using h)

/-! ### Instants and their texts -/

/-- A clock reading that names a date: a time value and the whole millisecond it
names. -/
structure Stamp where
  /-- The time value read. -/
  value : Float
  /-- The millisecond it names. -/
  ms : Int
  /-- The value names that millisecond. -/
  dated : clip? value = some ms

/-- The UTC day of an instant: whole days since 1970-01-01, rounded down. -/
def dayOf (t : Int) : Int := t / dayMs

/-- The UTC calendar date of an instant. -/
def dateOf (t : Int) : Civil := civilOfDays (dayOf t)

/-- The UTC month of an instant, with its year, as `12 · year + month`. -/
def monthOf (t : Int) : Int := (dateOf t).monthKey

/-- Whether an instant falls in a year written with four digits, 0 … 9999. -/
def FourDigitYear (t : Int) : Prop := 0 ≤ (dateOf t).year ∧ (dateOf t).year ≤ 9999

instance : DecidablePred FourDigitYear := fun t =>
  inferInstanceAs (Decidable (0 ≤ (dateOf t).year ∧ (dateOf t).year ≤ 9999))

/-- The ISO text of an instant in a four-digit year starts with its date, written
`YYYY-MM-DD`. -/
theorem iso_toList_date {t : Int} (h : FourDigitYear t) : ∃ rest, (iso t).toList =
    (padded 4 (dateOf t).year.toNat).toList ++ '-' :: ((padded 2 (dateOf t).month).toList ++
      '-' :: ((padded 2 (dateOf t).day).toList ++ rest)) := by
  have hy : yearText (dateOf t).year = padded 4 (dateOf t).year.toNat := by
    simp [yearText, h.1, h.2]
  simp only [dateOf, dayOf] at hy ⊢
  simp only [iso, String.toList_append, hy, List.append_assoc, show "-".toList = ['-'] from rfl,
    List.cons_append, List.nil_append]
  exact ⟨_, rfl⟩

theorem dayText_toList {t : Int} (h : FourDigitYear t) :
    (dayText t).toList = (padded 4 (dateOf t).year.toNat).toList ++
      '-' :: ((padded 2 (dateOf t).month).toList ++ '-' :: (padded 2 (dateOf t).day).toList) := by
  obtain ⟨rest, hiso⟩ := iso_toList_date h
  have l4 : (padded 4 (dateOf t).year.toNat).toList.length = 4 :=
    length_padded (toDigits_length_le_four (by have := h.2; omega))
  have l2m : (padded 2 (dateOf t).month).toList.length = 2 :=
    length_padded (toDigits_length_le_two (by have := civilOfDays_month_le (dayOf t); unfold dateOf; omega))
  have l2d : (padded 2 (dateOf t).day).toList.length = 2 :=
    length_padded (toDigits_length_le_two (by have := civilOfDays_day_le (dayOf t); unfold dateOf; omega))
  simp only [dayText, String.Slice.toString_eq, String.toList_copy_take, hiso]
  rw [show ∀ (A B C R : List Char),
      A ++ '-' :: (B ++ '-' :: (C ++ R)) = (A ++ '-' :: (B ++ '-' :: C)) ++ R by
    intros; simp]
  rw [List.take_left' (by simp [l4, l2m, l2d])]

theorem monthText_toList {t : Int} (h : FourDigitYear t) :
    (monthText t).toList = (padded 4 (dateOf t).year.toNat).toList ++
      '-' :: (padded 2 (dateOf t).month).toList := by
  obtain ⟨rest, hiso⟩ := iso_toList_date h
  have l4 : (padded 4 (dateOf t).year.toNat).toList.length = 4 :=
    length_padded (toDigits_length_le_four (by have := h.2; omega))
  have l2m : (padded 2 (dateOf t).month).toList.length = 2 :=
    length_padded (toDigits_length_le_two (by have := civilOfDays_month_le (dayOf t); unfold dateOf; omega))
  simp only [monthText, String.Slice.toString_eq, String.toList_copy_take, hiso]
  rw [show ∀ (A B R : List Char), A ++ '-' :: (B ++ R) = (A ++ '-' :: B) ++ R by
    intros; simp]
  rw [List.take_left' (by simp [l4, l2m])]

theorem padded_inj {w n n' : Nat} (h : (padded w n).toList = (padded w n').toList) : n = n' := by
  rw [← ofDigitChars_padded w n, ← ofDigitChars_padded w n', h]

theorem year_eq_of_padded {t t' : Int} (h : FourDigitYear t) (h' : FourDigitYear t')
    (he : (padded 4 (dateOf t).year.toNat).toList = (padded 4 (dateOf t').year.toNat).toList) :
    (dateOf t).year = (dateOf t').year := by
  have := padded_inj he
  have := h.1
  have := h'.1
  omega

theorem length_padded_year {t : Int} (h : FourDigitYear t) :
    (padded 4 (dateOf t).year.toNat).toList.length = 4 :=
  length_padded (toDigits_length_le_four (by have := h.2; omega))

theorem length_padded_month (t : Int) : (padded 2 (dateOf t).month).toList.length = 2 :=
  length_padded (toDigits_length_le_two (by have := civilOfDays_month_le (dayOf t); unfold dateOf; omega))

theorem Civil.eq_of {c c' : Civil} (hy : c.year = c'.year) (hm : c.month = c'.month)
    (hd : c.day = c'.day) : c = c' := by
  cases c
  cases c'
  simp_all

/-- **The day text names the day**, for instants in four-digit years. -/
theorem dayText_eq_iff {t t' : Int} (h : FourDigitYear t) (h' : FourDigitYear t') :
    dayText t = dayText t' ↔ dayOf t = dayOf t' := by
  constructor
  · intro he
    have hl := congrArg String.toList he
    rw [dayText_toList h, dayText_toList h'] at hl
    obtain ⟨hy, hl⟩ := List.append_inj hl (by rw [length_padded_year h, length_padded_year h'])
    obtain ⟨hm, hd⟩ := List.append_inj (List.cons.inj hl).2
      (by rw [length_padded_month, length_padded_month])
    have hdate : dateOf t = dateOf t' :=
      Civil.eq_of (year_eq_of_padded h h' hy) (padded_inj hm) (padded_inj (List.cons.inj hd).2)
    exact civilOfDays_injective hdate
  · intro he
    rw [← String.toList_inj, dayText_toList h, dayText_toList h', dateOf, dateOf, he]

/-- **The month text names the month**, for instants in four-digit years. -/
theorem monthText_eq_iff {t t' : Int} (h : FourDigitYear t) (h' : FourDigitYear t') :
    monthText t = monthText t' ↔ monthOf t = monthOf t' := by
  have hm := civilOfDays_month_pos (dayOf t)
  have hm' := civilOfDays_month_le (dayOf t)
  have hn := civilOfDays_month_pos (dayOf t')
  have hn' := civilOfDays_month_le (dayOf t')
  simp only [monthOf, Civil.monthKey]
  rw [← String.toList_inj, monthText_toList h, monthText_toList h']
  constructor
  · intro hl
    obtain ⟨hy, hl⟩ := List.append_inj hl (by rw [length_padded_year h, length_padded_year h'])
    rw [year_eq_of_padded h h' hy, padded_inj (List.cons.inj hl).2]
  · intro he
    -- months run 1 … 12, so `12 · year + month` gives back the year and the month
    have hy : (dateOf t).year = (dateOf t').year := by unfold dateOf at *; omega
    have hmo : (dateOf t).month = (dateOf t').month := by unfold dateOf at *; omega
    rw [hy, hmo]

theorem dayOf_le {t t' : Int} (h : t ≤ t') : dayOf t ≤ dayOf t' :=
  Int.ediv_le_ediv (by decide) h

/-- An instant's month never goes back as time moves on. -/
theorem monthOf_le {t t' : Int} (h : t ≤ t') : monthOf t ≤ monthOf t' :=
  Civil.monthKey_civilOfDays_le (dayOf_le h)

theorem monthOf_eq_of_dayOf_eq {t t' : Int} (h : dayOf t = dayOf t') : monthOf t = monthOf t' := by
  unfold monthOf dateOf
  rw [h]

end LaneGate.Clock
