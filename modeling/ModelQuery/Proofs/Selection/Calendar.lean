import ModelQuery.Selection.Instant

/-! The calendar. Days count on through spans of four hundred years, whose centuries, spans of four
years and years are told apart from the leap days that each of them ends with. -/

namespace ModelQuery.Instant

/-- A day of the calendar, counted from the March in which a span of four hundred years begins. -/
structure Parts where
  /-- The span of four hundred years. -/
  era : Int
  century : Int
  /-- The span of four years. -/
  cycle : Int
  year : Int
  /-- The day of the year, which ends with February. -/
  day : Int
  century_bound : 0 ≤ century ∧ century ≤ 3
  cycle_bound : 0 ≤ cycle ∧ cycle ≤ 24
  year_bound : 0 ≤ year ∧ year ≤ 3
  day_bound : 0 ≤ day ∧ day ≤ 365
  /-- Only the last year of four has a leap day, and of the centuries only the last one keeps the one
  at its end. -/
  leap_day : day = 365 → year = 3 ∧ (cycle = 24 → century = 3)

namespace Parts

variable (parts : Parts)

/-- The days from the start of 1970. -/
def days : Int :=
  146097 * parts.era + 36524 * parts.century + 1461 * parts.cycle + 365 * parts.year + parts.day -
    719468

/-- Every day has its parts. -/
theorem exists_days_eq (days : Int) : ∃ parts : Parts, parts.days = days := by
  have hera := Int.emod_nonneg (days + 719468) (show (146097 : Int) ≠ 0 by decide)
  generalize hr : (days + 719468) % 146097 = r at hera
  -- The leap day at the end of an era and of a cycle belongs to the span before it.
  have hcentury : ∃ century, 0 ≤ century ∧ century ≤ 3 ∧ 36524 * century ≤ r ∧
      (r - 36524 * century ≤ 36523 ∨ r - 36524 * century = 36524 ∧ century = 3) :=
    ⟨min 3 (r / 36524), by omega, by omega, by omega, by omega⟩
  obtain ⟨century, hc0, hc3, hcr, hcentury⟩ := hcentury
  generalize hs : r - 36524 * century = s at hcentury
  have hyear : ∃ year, 0 ≤ year ∧ year ≤ 3 ∧ 365 * year ≤ s % 1461 ∧
      (s % 1461 - 365 * year ≤ 364 ∨ s % 1461 - 365 * year = 365 ∧ year = 3) :=
    ⟨min 3 (s % 1461 / 365), by omega, by omega, by omega, by omega⟩
  obtain ⟨year, hy0, hy3, hys, hyear⟩ := hyear
  refine ⟨⟨(days + 719468) / 146097, century, s / 1461, year, s % 1461 - 365 * year, ⟨hc0, hc3⟩,
    by omega, ⟨hy0, hy3⟩, by omega, by omega⟩, ?_⟩
  simp only [Parts.days]
  omega

/-- The day of the span of four hundred years. -/
def dayOfEra : Int :=
  36524 * parts.century + 1461 * parts.cycle + 365 * parts.year + parts.day

/-- The year of the span of four hundred years. -/
def yearOfEra : Int :=
  100 * parts.century + 4 * parts.cycle + parts.year

theorem yearOfEra_bound : 0 ≤ parts.yearOfEra ∧ parts.yearOfEra ≤ 399 := by
  have hcentury := parts.century_bound
  have hcycle := parts.cycle_bound
  have hyear := parts.year_bound
  unfold yearOfEra
  omega

/-- Beyond a whole century there is only the last day of all. -/
theorem dayOfEra_century : parts.dayOfEra / 36524 - parts.dayOfEra / 146096 = parts.century := by
  obtain ⟨era, century, cycle, year, day, hcentury, hcycle, hyear, hday, hleap⟩ := parts
  simp only [dayOfEra]
  generalize hr : 36524 * century + 1461 * cycle + 365 * year + day = r
  have hlast : r ≤ 36524 * century + 36523 ∨ r = 146096 ∧ century = 3 := by
    by_cases hd : day = 365
    · obtain ⟨-, hcycle⟩ := hleap hd
      by_cases hc : cycle = 24
      · have := hcycle hc
        omega
      · omega
    · omega
  rcases hlast with hlast | hlast
  · have hquotient : r / 36524 = century := by omega
    have hnone : r / 146096 = 0 := by omega
    omega
  · omega

/-- A year is found by leaving out the leap days that lie before it. -/
theorem dayOfEra_year : (parts.dayOfEra - parts.dayOfEra / 1460 + parts.dayOfEra / 36524 -
    parts.dayOfEra / 146096) / 365 = parts.yearOfEra := by
  have hcenturies := parts.dayOfEra_century
  obtain ⟨era, century, cycle, year, day, hcentury, hcycle, hyear, hday, hleap⟩ := parts
  simp only [dayOfEra, yearOfEra] at hcenturies ⊢
  generalize hr : 36524 * century + 1461 * cycle + 365 * year + day = r at hcenturies ⊢
  have hleaps : r / 1460 = 25 * century + cycle ∨
      r / 1460 = 25 * century + cycle + 1 ∧ 1460 ≤ 24 * century + cycle + 365 * year + day := by
    omega
  rcases hleaps with hleaps | hleaps
  · omega
  · omega

theorem yearOfEra_leaps : parts.yearOfEra * 365 + parts.yearOfEra / 4 - parts.yearOfEra / 100 +
    parts.day = parts.dayOfEra := by
  have hcycle := parts.cycle_bound
  have hyear := parts.year_bound
  have hfour : parts.yearOfEra / 4 = 25 * parts.century + parts.cycle := by
    unfold yearOfEra
    omega
  have hhundred : parts.yearOfEra / 100 = parts.century := by
    unfold yearOfEra
    omega
  rw [hfour, hhundred]
  unfold yearOfEra dayOfEra
  omega

theorem days_era : (parts.days + 719468).fdiv 146097 = parts.era := by
  have hcentury := parts.century_bound
  have hcycle := parts.cycle_bound
  have hyear := parts.year_bound
  have hday := parts.day_bound
  have hleap := parts.leap_day
  rw [Int.fdiv_eq_ediv_of_nonneg _ (by decide)]
  unfold days
  omega

theorem days_eq : parts.days + 719468 = parts.dayOfEra + parts.era * 146097 := by
  unfold days dayOfEra
  omega

/-- The number of the month, where March is the first. -/
def month : Int :=
  (5 * parts.day + 2) / 153

theorem month_bound : 0 ≤ parts.month ∧ parts.month ≤ 11 := by
  have hday := parts.day_bound
  unfold month
  omega

/-- The days of the month before this one and with it. -/
def monthDay : Int :=
  parts.day - (153 * parts.month + 2) / 5 + 1

/-- The year in which the parts begin in March. -/
def march : Int :=
  parts.yearOfEra + parts.era * 400

def dateYear : Int :=
  if parts.month < 10 then parts.march else parts.march + 1

def dateMonth : Int :=
  if parts.month < 10 then parts.month + 3 else parts.month - 9

theorem dateMonth_bound : 1 ≤ parts.dateMonth ∧ parts.dateMonth ≤ 12 := by
  have hmonth := parts.month_bound
  unfold dateMonth
  split <;> omega

theorem dateMonth_le_two_iff : parts.dateMonth ≤ 2 ↔ 10 ≤ parts.month := by
  have hmonth := parts.month_bound
  unfold dateMonth
  split <;> omega

theorem one_le_monthDay : 1 ≤ parts.monthDay := by
  have hday := parts.day_bound
  unfold monthDay month
  omega

theorem dateOfDays_days :
    dateOfDays parts.days = (parts.dateYear, parts.dateMonth.toNat, parts.monthDay.toNat) := by
  have hday : parts.dayOfEra - (365 * parts.yearOfEra + parts.yearOfEra / 4 -
      parts.yearOfEra / 100) = parts.day := by
    have hleaps := parts.yearOfEra_leaps
    omega
  have hera : parts.days + 719468 - parts.era * 146097 = parts.dayOfEra := by
    rw [days_eq]
    omega
  have hyear : (if parts.dateMonth ≤ 2 then parts.march + 1 else parts.march) = parts.dateYear := by
    have hmonth := parts.dateMonth_le_two_iff
    unfold dateYear
    split <;> split <;> omega
  simp only [dateOfDays, days_era, hera, dayOfEra_year, hday]
  rw [← hyear]
  rfl

/-- The date of the parts leads back to their days. -/
theorem daysOfDate_date :
    daysOfDate parts.dateYear parts.dateMonth.toNat parts.monthDay.toNat = parts.days := by
  have hmonth := parts.month_bound
  have hdate := parts.dateMonth_bound
  have hyears := parts.yearOfEra_bound
  have hmarch : (if parts.dateMonth.toNat ≤ 2 then parts.dateYear - 1 else parts.dateYear) =
      parts.march := by
    have hiff := parts.dateMonth_le_two_iff
    unfold dateYear
    split <;> split <;> omega
  have hera : parts.march.fdiv 400 = parts.era := by
    rw [Int.fdiv_eq_ediv_of_nonneg _ (by decide)]
    unfold march
    omega
  have hyear : parts.march - parts.era * 400 = parts.yearOfEra := by
    unfold march
    omega
  have hback : ((parts.dateMonth.toNat : Int) + 9) % 12 = parts.month := by
    rw [Int.toNat_of_nonneg (by omega)]
    unfold dateMonth
    split <;> omega
  have hday : (153 * parts.month + 2) / 5 + (parts.monthDay.toNat : Int) - 1 = parts.day := by
    rw [Int.toNat_of_nonneg (by have := parts.one_le_monthDay; omega)]
    unfold monthDay
    omega
  have hleaps := parts.yearOfEra_leaps
  have hdays := parts.days_eq
  simp only [daysOfDate, hmarch, hera, hyear, hback, hday, hleaps]
  omega

theorem isLeap_of_day_eq (h : parts.day = 365) : isLeap (parts.march + 1) = true := by
  obtain ⟨hyear, hcycle⟩ := parts.leap_day h
  have hbound := parts.cycle_bound
  have hcentury := parts.century_bound
  have hfour : (parts.march + 1) % 4 = 0 := by
    unfold march yearOfEra
    omega
  simp only [isLeap, Bool.and_eq_true, Bool.or_eq_true, beq_iff_eq, bne_iff_ne]
  refine ⟨hfour, ?_⟩
  by_cases hc : parts.cycle = 24
  · right
    have := hcycle hc
    unfold march yearOfEra
    omega
  · left
    unfold march yearOfEra
    omega

theorem monthDay_le :
    parts.monthDay.toNat ≤ daysInMonth parts.dateYear parts.dateMonth.toNat := by
  have hday := parts.day_bound
  have hmonth := parts.month_bound
  by_cases hfebruary : parts.month = 11
  · have hdate : parts.dateMonth.toNat = 2 := by
      unfold dateMonth
      split <;> omega
    have hyear : parts.dateYear = parts.march + 1 := by
      unfold dateYear
      split <;> omega
    have hlength : parts.monthDay.toNat ≤ if parts.day = 365 then 29 else 28 := by
      unfold monthDay
      split <;> omega
    rw [daysInMonth, if_pos hdate, hyear]
    by_cases hd : parts.day = 365
    · rw [if_pos hd] at hlength
      rwa [parts.isLeap_of_day_eq hd, if_pos rfl]
    · rw [if_neg hd] at hlength
      split <;> omega
  · have hdate : parts.dateMonth.toNat ≠ 2 := by
      unfold dateMonth
      split <;> omega
    have hlong : parts.month = 1 ∨ parts.month = 3 ∨ parts.month = 6 ∨ parts.month = 8 →
        parts.monthDay ≤ 30 := by
      unfold monthDay month
      omega
    have hlonger : parts.monthDay ≤ 31 := by
      unfold monthDay month
      omega
    rw [daysInMonth, if_neg hdate]
    split
    · next hshort =>
      have hlong := hlong (by
        unfold dateMonth at hshort
        split at hshort <;> omega)
      omega
    · omega

/-- The days between the first and the last one lie in the years from the first to the last. -/
theorem dateYear_bound (hfirst : daysOfDate firstYear 1 1 ≤ parts.days)
    (hlast : parts.days ≤ daysOfDate lastYear 12 31) :
    firstYear ≤ parts.dateYear ∧ parts.dateYear ≤ lastYear := by
  rw [show daysOfDate firstYear 1 1 = -96465292 by decide] at hfirst
  rw [show daysOfDate lastYear 12 31 = 95026236 by decide] at hlast
  have hcentury := parts.century_bound
  have hcycle := parts.cycle_bound
  have hyear := parts.year_bound
  have hday := parts.day_bound
  unfold days at hfirst hlast
  -- The last day lies in December, and the year that began in the March before goes on behind it.
  have hend : 400 * parts.era + 100 * parts.century + 4 * parts.cycle + parts.year = 262142 →
      parts.day ≤ 305 := by
    intro hmarch
    have hera : parts.era = 655 ∧ parts.century = 1 ∧ parts.cycle = 10 ∧ parts.year = 2 := by omega
    omega
  unfold dateYear march yearOfEra month firstYear lastYear
  split <;> omega

end Parts

/-- A day leads to a date of the calendar, and the date leads back to the day. -/
theorem date_of_days (days : Int) {year : Int} {month day : Nat}
    (h : dateOfDays days = (year, month, day)) :
    daysOfDate year month day = days ∧ 1 ≤ month ∧ month ≤ 12 ∧ 1 ≤ day ∧
      day ≤ daysInMonth year month ∧
      (daysOfDate firstYear 1 1 ≤ days → days ≤ daysOfDate lastYear 12 31 →
        firstYear ≤ year ∧ year ≤ lastYear) := by
  obtain ⟨parts, rfl⟩ := Parts.exists_days_eq days
  rw [parts.dateOfDays_days] at h
  obtain ⟨rfl, rfl, rfl⟩ : parts.dateYear = year ∧ parts.dateMonth.toNat = month ∧
      parts.monthDay.toNat = day := by
    simpa only [Prod.mk.injEq] using h
  have hmonth := parts.dateMonth_bound
  have hday := parts.one_le_monthDay
  exact ⟨parts.daysOfDate_date, by omega, by omega, by omega, parts.monthDay_le,
    parts.dateYear_bound⟩

end ModelQuery.Instant
