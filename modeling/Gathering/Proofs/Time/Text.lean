import Gathering.Proofs.Decimal.Digits
import Gathering.Proofs.Time.Calendar
import Gathering.Proofs.Time.Order
import Gathering.Time.Text

/-!
# Reading back instants

Every instant is read back from its text (`Instant.parse?_render`), leap seconds
included. The text is a row of numbers with fixed characters between them. Each
number is a run of digits that ends where the next character is no digit, or
where its two or four places are used up, so that reading takes just the digits
that were written.
-/

namespace Gathering.Instant

open Gathering.Text (isBlankChar)
open Gathering.Decimal (padded natOfDigits IsRun)

/-! ## Numbers and the characters between them

The reader of a number takes digits as long as there are any and places are left. So it takes what
was written if the text goes on with another character, or if all places were written. -/

/-- Characters that do not go on with a digit. -/
def EndsRun (cs : List Char) : Prop := ∀ c, cs.head? = some c → c.isDigit = false

theorem endsRun_cons {c : Char} (h : c.isDigit = false) (cs : List Char) : EndsRun (c :: cs) := by
  intro d hd
  cases hd
  exact h

variable {ds cs : List Char} {n : Nat}

theorem not_isBlankChar_of_isDigit {c : Char} (h : c.isDigit = true) : isBlankChar c = false := by
  have hcode : 48 ≤ c.toNat ∧ c.toNat ≤ 57 := by
    unfold Char.isDigit at h
    simp only [Bool.and_eq_true, decide_eq_true_eq] at h
    exact h
  unfold isBlankChar
  simp only [Bool.or_eq_false_iff, Bool.and_eq_false_imp, decide_eq_true_eq,
    decide_eq_false_iff_not, beq_eq_false_iff_ne]
  omega

theorem skipBlank_cons {c : Char} (h : isBlankChar c = false) (cs : List Char) :
    skipBlank (c :: cs) = c :: cs := by
  unfold skipBlank
  rw [List.dropWhile_cons, h]
  rfl

theorem skipBlank_run (h : IsRun ds) (cs : List Char) : skipBlank (ds ++ cs) = ds ++ cs := by
  obtain ⟨d, ds, rfl⟩ := List.exists_cons_of_ne_nil h.ne_nil
  exact skipBlank_cons (not_isBlankChar_of_isDigit (h.isDigit d List.mem_cons_self)) _

/-- **A number is read** if its places are used up or no digit follows.

Nothing is skipped in front of it, since a digit is no blank character. -/
theorem number?_append {most : Nat} (h : IsRun ds) (hlength : ds.length ≤ most)
    (hend : ds.length = most ∨ EndsRun cs) :
    number? most (ds ++ cs) = some (natOfDigits ds, cs) := by
  have hdigits : ((ds ++ cs).take most).takeWhile Char.isDigit = ds := by
    rw [List.take_append, List.take_of_length_le hlength, List.takeWhile_append_of_pos h.isDigit]
    have hrest : (cs.take (most - ds.length)).takeWhile Char.isDigit = [] := by
      rcases hend with hfull | hend
      · rw [hfull, Nat.sub_self]
        rfl
      · cases cs with
        | nil =>
          rw [List.take_nil]
          rfl
        | cons c cs =>
          cases most - ds.length with
          | zero => rfl
          | succ k =>
            rw [List.take_succ_cons, List.takeWhile_cons, hend c rfl]
            rfl
    rw [hrest, List.append_nil]
  unfold number?
  simp only [hdigits]
  rw [if_neg (by simpa using h.ne_nil), List.drop_left]

/-- **A number of two places is read.** -/
theorem twoDigits?_padded (h : n < 100) (cs : List Char) :
    twoDigits? ((padded 2 n).toList ++ cs) = some (n, cs) := by
  have hlength : (padded 2 n).toList.length = 2 := Decimal.length_padded (by decide) h
  unfold twoDigits?
  rw [skipBlank_run (Decimal.isRun_padded 2 n),
    number?_append (Decimal.isRun_padded 2 n) (Nat.le_of_eq hlength) (.inl hlength),
    Decimal.natOfDigits_padded]

theorem expect?_cons {c : Char} (h : isBlankChar c = false) (cs : List Char) :
    expect? c (skipBlank (c :: cs)) = some cs := by
  rw [skipBlank_cons h]
  exact if_pos rfl

/-! ## Years

A year of four digits is written without a sign, and any other year with one, so that the reader
knows from the first character whether to stop after four places. -/

/-- A year without a sign has four places. -/
theorem year?_run (h : IsRun ds) (hlength : ds.length = 4) (cs : List Char) :
    year? (ds ++ cs) = some ((natOfDigits ds : Int), cs) := by
  have hread : number? 4 (ds ++ cs) = some (natOfDigits ds, cs) :=
    number?_append h (Nat.le_of_eq hlength) (.inl hlength)
  have hskip := skipBlank_run h cs
  obtain ⟨d, ds, rfl⟩ := List.exists_cons_of_ne_nil h.ne_nil
  have hdigit := h.isDigit d List.mem_cons_self
  unfold year?
  rw [hskip]
  split
  case h_1 heq =>
    cases heq
    cases hdigit
  case h_2 heq =>
    cases heq
    cases hdigit
  case h_3 =>
    rw [hread]
    rfl

theorem number?_length (h : IsRun ds) (hend : EndsRun cs) :
    number? (ds ++ cs).length (ds ++ cs) = some (natOfDigits ds, cs) :=
  number?_append h (by simp) (.inr hend)

/-- **A year is read** in front of a character that is no digit.

Between the years 0 and 9999 there is no sign, and four places are read. Any other year has a
sign, and its digits are read to their end. -/
theorem year?_yearText (year : Int) (h : EndsRun cs) :
    year? ((yearText year).toList ++ cs) = some (year, cs) := by
  have hrun := Decimal.isRun_padded 4 year.natAbs
  have hsigned := number?_length hrun h
  have hvalue := Decimal.natOfDigits_padded 4 year.natAbs
  unfold yearText
  split
  case isTrue hyear => -- four digits
    rw [year?_run hrun (Decimal.length_padded (by decide) (by omega)), hvalue,
      Int.natAbs_of_nonneg hyear.1]
  case isFalse hyear =>
    generalize (padded 4 year.natAbs) = text at hsigned hvalue ⊢
    rw [String.toList_append, List.append_assoc]
    by_cases hsign : year < 0
    · -- a sign was written, so all digits are read
      rw [if_pos hsign]
      show (number? (text.toList ++ cs).length (text.toList ++ cs)).map _ = _
      have hyear : -(year.natAbs : Int) = year := by omega
      rw [hsigned, Option.map_some, hvalue]
      exact congrArg (fun y => some (y, cs)) hyear
    · rw [if_neg hsign]
      show (number? (text.toList ++ cs).length (text.toList ++ cs)).map _ = _
      have hyear : (year.natAbs : Int) = year := by omega
      rw [hsigned, Option.map_some, hvalue]
      exact congrArg (fun y => some (y, cs)) hyear

/-! ## Dates and times of day -/

/-- **A date is read** up to the character behind it. -/
theorem date?_append {d : Date} (h : d.isValid = true) (cs : List Char) :
    date? ((yearText d.year).toList ++ '-' :: ((padded 2 d.month).toList ++
      '-' :: ((padded 2 d.day).toList ++ cs))) = some (d, cs) := by
  have hmonth : d.month < 100 ∧ d.day < 100 := by
    unfold Date.isValid Date.daysInMonth at h
    simp only [Bool.and_eq_true, decide_eq_true_eq] at h
    grind
  unfold date?
  rw [year?_yearText d.year (endsRun_cons (by decide) _)]
  simp only [Option.bind_eq_bind, Option.bind_some]
  rw [expect?_cons (by decide)]
  simp only [Option.bind_some]
  rw [twoDigits?_padded hmonth.1]
  simp only [Option.bind_some]
  rw [expect?_cons (by decide)]
  simp only [Option.bind_some]
  rw [twoDigits?_padded hmonth.2]
  rfl

/-- The digits of a fraction, as many as are written. -/
theorem fraction?_padded {width n : Nat} (hwidth : 0 < width) (hmost : width ≤ 9)
    (h : n < 10 ^ width) (hend : EndsRun cs) :
    fraction? ('.' :: ((padded width n).toList ++ cs)) = some (n * 10 ^ (9 - width), cs) := by
  have hrun := Decimal.isRun_padded width n
  have hlength := Decimal.length_padded hwidth h
  have hdigits : ((padded width n).toList ++ cs).takeWhile Char.isDigit =
      (padded width n).toList := by
    rw [List.takeWhile_append_of_pos hrun.isDigit]
    cases cs with
    | nil => exact List.append_nil _
    | cons c cs =>
      rw [List.takeWhile_cons, hend c rfl]
      exact List.append_nil _
  unfold fraction?
  simp only [hdigits]
  rw [if_neg (by simp), List.take_of_length_le (by omega), List.drop_left,
    Decimal.natOfDigits_padded, hlength]
  rfl

/-- **A fraction of a second is read.**

A fraction is written with three, six or nine places, or not at all if it is zero, and its value
is filled up to nanoseconds when it is read. If it is not written, the text must not go on with a
point. -/
theorem fraction?_fractionText {n : Nat} (h : n < 1000000000) (hend : EndsRun cs)
    (hpoint : cs.head? ≠ some '.') :
    fraction? ((fractionText n).toList ++ cs) = some (n, cs) := by
  unfold fractionText
  split
  case isTrue hzero =>
    subst hzero
    show fraction? cs = some (0, cs)
    unfold fraction?
    split
    · exact absurd rfl hpoint
    · rfl
  case isFalse =>
    split
    · rw [String.toList_append]
      refine (fraction?_padded (by decide) (by decide) (by omega) hend).trans ?_
      congr 2
      omega
    · split
      · rw [String.toList_append]
        refine (fraction?_padded (by decide) (by decide) (by omega) hend).trans ?_
        congr 2
        omega
      · rw [String.toList_append]
        exact (fraction?_padded (by decide) (by decide) h hend).trans (by simp)

/-- **A time of day is read**, the leap second of a minute as its second 60.

The fraction belongs to the second that was read, so that in a leap second it comes on top of a
whole second after second 59. -/
theorem timeOfDay?_append {hour minute second fraction : Nat} (hhour : hour < 24)
    (hminute : minute < 60) (hsecond : second ≤ 60) (hfraction : fraction < 1000000000)
    (hend : EndsRun cs) (hpoint : cs.head? ≠ some '.') :
    timeOfDay? ((padded 2 hour).toList ++ ':' :: ((padded 2 minute).toList ++
      ':' :: ((padded 2 second).toList ++ ((fractionText fraction).toList ++ cs)))) =
      if second = 60 then some ((hour * 60 + minute) * 60 + 59, nanosPerSecond + fraction, cs)
      else some ((hour * 60 + minute) * 60 + second, fraction, cs) := by
  unfold timeOfDay?
  rw [twoDigits?_padded (by omega)]
  simp only [Option.bind_eq_bind, Option.bind_some]
  rw [expect?_cons (by decide)]
  simp only [Option.bind_some]
  rw [twoDigits?_padded (by omega)]
  simp only [Option.bind_some]
  rw [expect?_cons (by decide)]
  simp only [Option.bind_some]
  rw [twoDigits?_padded (by omega)]
  simp only [Option.bind_some]
  rw [fraction?_fractionText hfraction hend hpoint]
  simp only [Option.bind_some]
  rw [if_neg (by omega)]

/-! ## Instants

What was written is put together from the parts, and each part is read in front of the rest of the
text.

 -/

theorem toList_render (t : Instant) :
    t.render.toList =
      let date := Date.ofDayNumber (t.second / secondsPerDay)
      let secs := t.secondOfDay.toNat
      (yearText date.year).toList ++ '-' :: ((padded 2 date.month).toList ++
        '-' :: ((padded 2 date.day).toList ++ 'T' :: ((padded 2 (secs / 3600)).toList ++
          ':' :: ((padded 2 (secs / 60 % 60)).toList ++
            ':' :: ((padded 2 (secs % 60 + t.fraction / nanosPerSecond)).toList ++
              ((fractionText (t.fraction % nanosPerSecond)).toList ++ ['Z'])))))) := by
  unfold render
  simp

/-- The clock has the year of each of its instants. So the check of the reader does not refuse
what was written for one. -/
theorem hasYear_year (t : Instant) :
    hasYear (Date.ofDayNumber (t.second / secondsPerDay)).year = true := by
  have hfirst := t.first_le
  have hlast := t.le_last
  have hyear := Date.year_ofDayNumber (n := t.second / secondsPerDay)
    (by unfold secondsPerDay; omega) (by unfold secondsPerDay; omega)
  unfold hasYear
  simp only [Bool.and_eq_true, decide_eq_true_eq]
  exact hyear

/-- **The time of day of an instant is read.** -/
theorem timeOfDay?_render (t : Instant) (hend : EndsRun cs) (hpoint : cs.head? ≠ some '.') :
    timeOfDay? ((padded 2 (t.secondOfDay.toNat / 3600)).toList ++
      ':' :: ((padded 2 (t.secondOfDay.toNat / 60 % 60)).toList ++
        ':' :: ((padded 2 (t.secondOfDay.toNat % 60 + t.fraction / nanosPerSecond)).toList ++
          ((fractionText (t.fraction % nanosPerSecond)).toList ++ cs)))) =
      some (t.secondOfDay.toNat, t.fraction, cs) := by
  have hfraction := t.fraction_lt
  have hday : t.secondOfDay.toNat < 86400 ∧
      (t.second % 60 = 59 → t.secondOfDay.toNat % 60 = 59) := by
    unfold secondOfDay
    omega
  generalize t.secondOfDay.toNat = secs at hday ⊢
  unfold nanosPerSecond
  rw [timeOfDay?_append (by omega) (Nat.mod_lt _ (by decide)) (by omega)
    (Nat.mod_lt _ (by decide)) hend hpoint]
  split
  · -- a leap second
    have hsecond : (secs / 3600 * 60 + secs / 60 % 60) * 60 + 59 = secs := by omega
    have hrest : nanosPerSecond + t.fraction % 1000000000 = t.fraction := by
      unfold nanosPerSecond
      omega
    rw [hsecond, hrest]
  · have hsecond : (secs / 3600 * 60 + secs / 60 % 60) * 60 +
        (secs % 60 + t.fraction / 1000000000) = secs := by omega
    have hrest : t.fraction % 1000000000 = t.fraction := by omega
    rw [hsecond, hrest]

/-- **Every instant is read back from its text.**

The date is one of the calendar, the second is one of its day, and a leap second is written as the
second 60 of a minute, from which it is read back. -/
theorem parse?_render (t : Instant) : parse? t.render = some t := by
  have hsecond : t.second / secondsPerDay * secondsPerDay + (t.secondOfDay.toNat : Int) - 0 =
      t.second := by
    unfold secondsPerDay secondOfDay
    omega
  unfold parse?
  rw [toList_render]
  simp only [Option.bind_eq_bind]
  rw [date?_append (Date.isValid_ofDayNumber _)]
  simp only [Option.bind_some, true_or, if_true]
  rw [timeOfDay?_render t (endsRun_cons (by decide) []) (by decide)]
  show (if _ then _ else _) = _
  rw [if_pos ⟨rfl, hasYear_year t, Date.isValid_ofDayNumber _⟩, Date.dayNumber_ofDayNumber, hsecond,
    at?_eq_some_iff]
  exact ⟨rfl, rfl⟩

end Gathering.Instant
