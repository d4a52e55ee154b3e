import Gathering.Time.Calendar

/-!
# Days and dates

Every day number has a date of the calendar (`Date.isValid_ofDayNumber`), and the
date has this day number (`Date.dayNumber_ofDayNumber`). An era of 400 years is
four centuries; a century is 25 times four years and a year is 365 days, where
the last century, the last four years and the last year of four may have a day
more. So a day of an era is given by four small numbers (`Date.IsDayOfEra`), and
the formulas of the calendar are read in terms of them.
-/

namespace Gathering.Date

/-- **A day of an era**, counted from 0, by the century, the four years, the year and the day; only
the last year of four years has a day 365, and not the last one of a century but the fourth. -/
structure IsDayOfEra (day c q y d : Int) : Prop where
  /-- There are four centuries. -/
  century : 0 ≤ c ∧ c ≤ 3
  /-- A century has four years 25 times. -/
  quad : 0 ≤ q ∧ q ≤ 24
  /-- Four years. -/
  year : 0 ≤ y ∧ y ≤ 3
  /-- A year has 365 days, or 366. -/
  rest : 0 ≤ d ∧ d ≤ 365
  /-- The day 366 is that of a leap year. -/
  leap : d = 365 → y = 3 ∧ (q = 24 → c = 3)
  /-- The day of the era. -/
  eq : day = 36524 * c + 1461 * q + 365 * y + d

/-- Every day of an era is given by its parts.

The last day of the era and the last day of every four years do not fit the division by the length
of a century or of a year: for the days 146096 and 1460 the quotient is too great by one, and they
go to the part before. -/
theorem exists_isDayOfEra {day : Int} (h : 0 ≤ day) (h' : day < daysPerEra) :
    ∃ c q y d, IsDayOfEra day c q y d := by
  unfold daysPerEra at h'
  have hcentury : ∃ c r : Int, (0 ≤ c ∧ c ≤ 3) ∧ 0 ≤ r ∧ (r ≤ 36523 ∨ c = 3 ∧ r = 36524) ∧
      day = 36524 * c + r :=
    ⟨min (day / 36524) 3, day - 36524 * min (day / 36524) 3, by omega, by omega, by omega, by omega⟩
  obtain ⟨c, r, hc, hr, hlast, rfl⟩ := hcentury
  have hyear : ∃ y d : Int, (0 ≤ y ∧ y ≤ 3) ∧ 0 ≤ d ∧ (d ≤ 364 ∨ y = 3 ∧ d = 365) ∧
      r % 1461 = 365 * y + d :=
    ⟨min (r % 1461 / 365) 3, r % 1461 - 365 * min (r % 1461 / 365) 3, by omega, by omega, by omega,
      by omega⟩
  obtain ⟨y, d, hy, hd, hlast', hrest⟩ := hyear
  exact ⟨c, r / 1461, y, d, hc, by omega, hy, by omega, by omega, by omega⟩

variable {day c q y d : Int}

/-- **The year of an era** is found from the day.

The formula takes out the leap days, of which there is one in every four years except at the end
of a century that is not the last, and what is left are years of 365 days. It is checked by
putting in the parts of the day. -/
theorem IsDayOfEra.yearOfEra (h : IsDayOfEra day c q y d) :
    (day - day / 1460 + day / 36524 - day / 146096) / 365 = 100 * c + 4 * q + y := by
  obtain ⟨hc, hq, hy, hd, hleap, heq⟩ := h
  have hcentury : day / 36524 - day / 146096 = c := by
    have hrest : 1461 * q + 365 * y + d ≤ 36524 ∧ (c ≠ 3 → 1461 * q + 365 * y + d < 36524) := by
      omega
    by_cases hlast : c = 3
    · omega
    · have hera : day / 146096 = 0 := by omega
      omega
  -- the day 366 of a year is told from the first one of the next by the extra step
  have hsteps : ∃ t, day / 1460 = 25 * c + q + t ∧ 0 ≤ d - t ∧ d - t ≤ 364 :=
    ⟨(24 * c + q + 365 * y + d) / 1460, by omega, by omega, by omega⟩
  obtain ⟨t, ht, hlow, hhigh⟩ := hsteps
  generalize day / 36524 = centuries, day / 146096 = eras, day / 1460 = steps at hcentury ht ⊢
  omega

/-- The day of the year is found from the day and the year. -/
theorem IsDayOfEra.dayOfYear (h : IsDayOfEra day c q y d) :
    day - (365 * (100 * c + 4 * q + y) + (100 * c + 4 * q + y) / 4 - (100 * c + 4 * q + y) / 100) =
      d := by
  obtain ⟨hc, hq, hy, hd, hleap, rfl⟩ := h
  have hfour : (100 * c + 4 * q + y) / 4 = 25 * c + q := by omega
  have hhundred : (100 * c + 4 * q + y) / 100 = c := by omega
  omega

theorem IsDayOfEra.isLeapYear (h : IsDayOfEra day c q y d) (hd : d = 365) (era : Int) :
    isLeapYear (era * 400 + (100 * c + 4 * q + y) + 1) = true := by
  obtain ⟨hyear, hlast⟩ := h.leap hd
  have hquad := h.quad
  have hcentury := h.century
  unfold Date.isLeapYear
  simp only [Bool.and_eq_true, Bool.or_eq_true, beq_iff_eq, bne_iff_ne]
  omega

/-- The first month of the year and those after it, by the day on which they begin.

From March on, five months have 153 days and then five more have, so that the day on which a month
begins is a linear function of the month, rounded down. -/
theorem month_bounds (hd : 0 ≤ d ∧ d ≤ 365) :
    0 ≤ (5 * d + 2) / 153 ∧ (5 * d + 2) / 153 ≤ 11 ∧
      0 ≤ d - (153 * ((5 * d + 2) / 153) + 2) / 5 := by
  omega

/-- The month of the civil year, from the month of the year that begins in March. -/
def civilMonth (month : Int) : Int := if month < 10 then month + 3 else month - 9

/-- **The date of a day of a year of an era** that begins in March. -/
def ofEra (era year month day : Int) : Date where
  year := era * 400 + year + (if civilMonth month ≤ 2 then 1 else 0)
  month := (civilMonth month).toNat
  day := day.toNat

theorem ofDayNumber_eq (h : IsDayOfEra day c q y d) (era : Int) :
    ofDayNumber (era * daysPerEra + day + eraEpoch) =
      ofEra era (100 * c + 4 * q + y) ((5 * d + 2) / 153)
        (d - (153 * ((5 * d + 2) / 153) + 2) / 5 + 1) := by
  have hera : (era * daysPerEra + day + eraEpoch - eraEpoch) / daysPerEra = era ∧
      (era * daysPerEra + day + eraEpoch - eraEpoch) % daysPerEra = day := by
    obtain ⟨hc, hq, hy, hd, hleap, rfl⟩ := h
    unfold daysPerEra
    omega
  unfold ofDayNumber
  simp only [hera.1, hera.2, h.yearOfEra, h.dayOfYear]
  rfl

/-- The day number of a date of an era. -/
theorem dayNumber_ofEra {era year month day : Int} (hyear : 0 ≤ year ∧ year < 400)
    (hmonth : 0 ≤ month ∧ month < 12) (hday : 0 ≤ day) :
    (ofEra era year month day).dayNumber = era * daysPerEra +
      (365 * year + year / 4 - year / 100 + ((153 * month + 2) / 5 + day - 1)) + eraEpoch := by
  have hera : (era * 400 + year) / 400 = era ∧ (era * 400 + year) % 400 = year := by omega
  unfold dayNumber ofEra civilMonth
  by_cases hfirst : month < 10
  · have hback : (((month + 3).toNat : Int) + 9) % 12 = month := by omega
    simp only [hfirst, if_true]
    rw [if_neg (by omega), if_neg (by omega), Int.add_zero, hera.1, hera.2, hback]
    omega
  · have hback : (((month - 9).toNat : Int) + 9) % 12 = month := by omega
    simp only [hfirst, if_false]
    rw [if_pos (by omega), if_pos (by omega), Int.add_sub_cancel, hera.1, hera.2, hback]
    omega

theorem exists_era (n : Int) : ∃ era day, 0 ≤ day ∧ day < daysPerEra ∧
    n = era * daysPerEra + day + eraEpoch := by
  refine ⟨(n - eraEpoch) / daysPerEra, (n - eraEpoch) % daysPerEra, ?_⟩
  unfold daysPerEra
  omega

/-- **The date of a day number has this day number.**

The parts of the day give the date, and the day number of the date is reckoned from the same
parts. -/
theorem dayNumber_ofDayNumber (n : Int) : (ofDayNumber n).dayNumber = n := by
  obtain ⟨era, day, hlow, hhigh, rfl⟩ := exists_era n
  obtain ⟨c, q, y, d, h⟩ := exists_isDayOfEra hlow hhigh
  have hday := h.dayOfYear
  have hmonth := month_bounds h.rest
  have hc := h.century
  have hq := h.quad
  have hy := h.year
  rw [ofDayNumber_eq h, dayNumber_ofEra (by omega) (by omega) (by omega)]
  omega

/-- **The days of a month.** In a year that begins in March only the last month is short. -/
theorem le_daysInMonth {year : Int} (hd : 0 ≤ d ∧ d ≤ 365)
    (hleap : d = 365 → isLeapYear year = true) :
    (d - (153 * ((5 * d + 2) / 153) + 2) / 5 + 1).toNat ≤
      daysInMonth year (civilMonth ((5 * d + 2) / 153)).toNat := by
  obtain ⟨hlow, hhigh, _⟩ := month_bounds hd
  generalize hm : (5 * d + 2) / 153 = m at hlow hhigh ⊢
  have hcases : m = 0 ∨ m = 1 ∨ m = 2 ∨ m = 3 ∨ m = 4 ∨ m = 5 ∨ m = 6 ∨ m = 7 ∨ m = 8 ∨ m = 9 ∨
      m = 10 ∨ m = 11 := by
    omega
  rcases hcases with rfl | rfl | rfl | rfl | rfl | rfl | rfl | rfl | rfl | rfl | rfl | rfl
  case inr.inr.inr.inr.inr.inr.inr.inr.inr.inr.inr => -- February
    show _ ≤ if isLeapYear year = true then 29 else 28
    split
    · omega
    · next hshort =>
      have hlast : d ≠ 365 := fun h => hshort (hleap h)
      omega
  all_goals first
    | show _ ≤ 31
      omega
    | show _ ≤ 30
      omega

/-- **The date of a day number is one of the calendar.**

The month is one of twelve and the day is one of its days. Only for the last day of a year that
begins in March does it matter whether the year is a leap year: then it is the 29th of
February. -/
theorem isValid_ofDayNumber (n : Int) : (ofDayNumber n).isValid = true := by
  obtain ⟨era, day, hlow, hhigh, rfl⟩ := exists_era n
  obtain ⟨c, q, y, d, h⟩ := exists_isDayOfEra hlow hhigh
  obtain ⟨hlow, hhigh, hday⟩ := month_bounds h.rest
  have hmonth : 1 ≤ (civilMonth ((5 * d + 2) / 153)).toNat ∧
      (civilMonth ((5 * d + 2) / 153)).toNat ≤ 12 := by
    unfold civilMonth
    omega
  rw [ofDayNumber_eq h]
  unfold isValid ofEra
  simp only [Bool.and_eq_true, decide_eq_true_eq]
  refine ⟨⟨hmonth, by omega⟩, le_daysInMonth h.rest fun hd => ?_⟩
  obtain rfl := hd
  exact h.isLeapYear rfl era

/-- The years of days from the first one of the clock on. -/
theorem IsDayOfEra.le_year (h : IsDayOfEra day c q y d) {era : Int}
    (hn : -96465292 ≤ era * daysPerEra + day + eraEpoch) :
    -262144 ≤ era * 400 + (100 * c + 4 * q + y) ∧
      (era * 400 + (100 * c + 4 * q + y) = -262144 → 306 ≤ d) := by
  obtain ⟨hc, hq, hy, hd, _, rfl⟩ := h
  unfold daysPerEra eraEpoch at hn
  have hera : -656 ≤ era := by omega
  rcases Int.lt_or_eq_of_le hera with hera | rfl
  · omega
  · have hcentury : 2 ≤ c := by omega
    rcases Int.lt_or_eq_of_le hcentury with hcentury | rfl <;> omega

/-- The years of days up to the last one of the clock. -/
theorem IsDayOfEra.year_le (h : IsDayOfEra day c q y d) {era : Int}
    (hn : era * daysPerEra + day + eraEpoch ≤ 95026236) :
    era * 400 + (100 * c + 4 * q + y) ≤ 262142 ∧
      (era * 400 + (100 * c + 4 * q + y) = 262142 → d < 306) := by
  obtain ⟨hc, hq, hy, hd, _, rfl⟩ := h
  unfold daysPerEra eraEpoch at hn
  have hera : era ≤ 655 := by omega
  rcases Int.lt_or_eq_of_le hera with hera | rfl
  · omega
  · have hcentury : c ≤ 1 := by omega
    rcases Int.lt_or_eq_of_le hcentury with hcentury | rfl <;> omega

/-- **The days of the clock lie in its years.** -/
theorem year_ofDayNumber {n : Int} (hlow : -96465292 ≤ n) (hhigh : n ≤ 95026236) :
    -262143 ≤ (ofDayNumber n).year ∧ (ofDayNumber n).year ≤ 262142 := by
  obtain ⟨era, day, hday, hday', rfl⟩ := exists_era n
  obtain ⟨c, q, y, d, h⟩ := exists_isDayOfEra hday hday'
  obtain ⟨hfirst, hfirst'⟩ := h.le_year hlow
  obtain ⟨hlast, hlast'⟩ := h.year_le hhigh
  have hd := h.rest
  have hjanuary : civilMonth ((5 * d + 2) / 153) ≤ 2 ↔ 306 ≤ d := by
    unfold civilMonth
    omega
  rw [ofDayNumber_eq h]
  unfold ofEra
  simp only [hjanuary]
  omega

end Gathering.Date
