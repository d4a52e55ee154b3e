/-!
# The civil calendar

Days are numbered from 1970-01-01. A date of the proleptic Gregorian calendar
has a day number, and each day number has one date. Both directions count years
that begin in March, so that the leap day comes last and the months before it
have a fixed pattern of lengths: 153 days in every five months.
-/

namespace Gathering

/-- A date of the proleptic Gregorian calendar; year zero is the year before year one. -/
structure Date where
  /-- The year, negative before year zero. -/
  year : Int
  /-- The month, from 1. -/
  month : Nat
  /-- The day of the month, from 1. -/
  day : Nat
  deriving DecidableEq, Repr

namespace Date

/-- Whether a year has a 29th of February. -/
def isLeapYear (year : Int) : Bool :=
  year % 4 == 0 && (year % 100 != 0 || year % 400 == 0)

/-- How many days a month has; a number that names no month has none. -/
def daysInMonth (year : Int) (month : Nat) : Nat :=
  if month = 2 then (if isLeapYear year then 29 else 28)
  else if month = 4 ∨ month = 6 ∨ month = 9 ∨ month = 11 then 30
  else if 1 ≤ month ∧ month ≤ 12 then 31
  else 0

/-- Whether the calendar has this date. -/
def isValid (d : Date) : Bool :=
  1 ≤ d.month && d.month ≤ 12 && 1 ≤ d.day && d.day ≤ daysInMonth d.year d.month

/-- Days from the start of one era of 400 years to the next. -/
def daysPerEra : Int := 146097

/-- The day number of 0000-03-01, where the era of year zero begins. -/
def eraEpoch : Int := -719468

/-- **The day number of a date**, counted from 1970-01-01. -/
def dayNumber (d : Date) : Int :=
  let year := if d.month ≤ 2 then d.year - 1 else d.year
  let era := year / 400
  let yearOfEra := year % 400
  let month : Int := (d.month + 9) % 12
  let dayOfYear := (153 * month + 2) / 5 + d.day - 1
  let dayOfEra := 365 * yearOfEra + yearOfEra / 4 - yearOfEra / 100 + dayOfYear
  era * daysPerEra + dayOfEra + eraEpoch

/-- **The date of a day number.** -/
def ofDayNumber (n : Int) : Date :=
  let day := n - eraEpoch
  let era := day / daysPerEra
  let dayOfEra := day % daysPerEra
  let yearOfEra := (dayOfEra - dayOfEra / 1460 + dayOfEra / 36524 - dayOfEra / 146096) / 365
  let dayOfYear := dayOfEra - (365 * yearOfEra + yearOfEra / 4 - yearOfEra / 100)
  let month := (5 * dayOfYear + 2) / 153
  let dayOfMonth := dayOfYear - (153 * month + 2) / 5 + 1
  let civilMonth := if month < 10 then month + 3 else month - 9
  { year := era * 400 + yearOfEra + (if civilMonth ≤ 2 then 1 else 0)
    month := civilMonth.toNat
    day := dayOfMonth.toNat }

end Date

example : Date.dayNumber ⟨1970, 1, 1⟩ = 0 ∧ Date.ofDayNumber 0 = ⟨1970, 1, 1⟩ := by decide

example : Date.ofDayNumber (Date.dayNumber ⟨2000, 2, 29⟩) = ⟨2000, 2, 29⟩ := by decide

end Gathering
