import Gathering.Decimal.Layout
import Gathering.Decimal.Reading
import Gathering.Text.Blank
import Gathering.Time.Instant

/-!
# Instants as text

An instant is written in universal time as `YYYY-MM-DDThh:mm:ssZ`. A fraction of
a second is written with 3, 6 or 9 digits, the fewest that hold it, and left out
if there is none. A leap second is the second 60 of its minute. Years outside 0
to 9999 carry a sign and keep at least four digits.

Reading is more generous than writing: blank space may stand between the parts,
numbers may leave out leading zeros, and the zone may be any offset from
universal time below a day. Digits of a fraction beyond the ninth are dropped.
The calendar must have the date and the clock must have the instant.
-/

namespace Gathering.Instant

open Gathering.Text (isBlankChar)
open Gathering.Decimal (padded digitText natOfDigits)

/-! ## Writing -/

/-- The year with a sign where its four digits do not say it. -/
def yearText (year : Int) : String :=
  if 0 ≤ year ∧ year ≤ 9999 then padded 4 year.natAbs
  else (if year < 0 then "-" else "+") ++ padded 4 year.natAbs

/-- The fraction of a second in the fewest groups of three digits, or nothing. -/
def fractionText (nanos : Nat) : String :=
  if nanos = 0 then ""
  else if nanos % 1000000 = 0 then "." ++ padded 3 (nanos / 1000000)
  else if nanos % 1000 = 0 then "." ++ padded 6 (nanos / 1000)
  else "." ++ padded 9 nanos

/-- **The text of an instant.** -/
def render (t : Instant) : String :=
  let date := Date.ofDayNumber (t.second / secondsPerDay)
  let secs := t.secondOfDay.toNat
  yearText date.year ++ "-" ++ padded 2 date.month ++ "-" ++ padded 2 date.day ++ "T" ++
    padded 2 (secs / 3600) ++ ":" ++ padded 2 (secs / 60 % 60) ++ ":" ++
    padded 2 (secs % 60 + t.fraction / nanosPerSecond) ++
    fractionText (t.fraction % nanosPerSecond) ++ "Z"

/-! ## Reading -/

/-- The text without the blank space in front. -/
def skipBlank (cs : List Char) : List Char :=
  cs.dropWhile isBlankChar

/-- The number of the digits in front, at least one and at most `most` of them. -/
def number? (most : Nat) (cs : List Char) : Option (Nat × List Char) :=
  let digits := (cs.take most).takeWhile Char.isDigit
  if digits.isEmpty then none else some (natOfDigits digits, cs.drop digits.length)

/-- A number of at most two digits behind blank space. -/
def twoDigits? (cs : List Char) : Option (Nat × List Char) :=
  number? 2 (skipBlank cs)

/-- A year: four digits at most, or any number of them behind a sign. -/
def year? (cs : List Char) : Option (Int × List Char) :=
  match skipBlank cs with
  | '-' :: rest => (number? rest.length rest).map fun (n, rest) => (-(n : Int), rest)
  | '+' :: rest => (number? rest.length rest).map fun (n, rest) => ((n : Int), rest)
  | rest => (number? 4 rest).map fun (n, rest) => ((n : Int), rest)

/-- The text behind a given character, which must come first. -/
def expect? (c : Char) : List Char → Option (List Char)
  | d :: rest => if c = d then some rest else none
  | [] => none

/-- A date, with blank space allowed between its parts. -/
def date? (cs : List Char) : Option (Date × List Char) := do
  let (year, cs) ← year? cs
  let cs ← expect? '-' (skipBlank cs)
  let (month, cs) ← twoDigits? cs
  let cs ← expect? '-' (skipBlank cs)
  let (day, cs) ← twoDigits? cs
  some (⟨year, month, day⟩, cs)

/-- The fraction of a second in nanoseconds: nothing, or a point and at least one digit. -/
def fraction? : List Char → Option (Nat × List Char)
  | '.' :: cs =>
    let digits := cs.takeWhile Char.isDigit
    if digits.isEmpty then none
    else
      let kept := digits.take 9
      some (natOfDigits kept * Nat.pow 10 (9 - kept.length), cs.drop digits.length)
  | cs => some (0, cs)

/-- The second of a day and the fraction of it. The second 60 of a minute is the leap second in
which its second 59 goes on. -/
def timeOfDay? (cs : List Char) : Option (Nat × Nat × List Char) := do
  let (hour, cs) ← twoDigits? cs
  let cs ← expect? ':' (skipBlank cs)
  let (minute, cs) ← twoDigits? cs
  let cs ← expect? ':' (skipBlank cs)
  let (second, cs) ← twoDigits? cs
  let (fraction, cs) ← fraction? cs
  let minutes := hour * 60 + minute
  if 24 ≤ hour ∨ 60 ≤ minute ∨ 60 < second then none
  else if second = 60 then some (minutes * 60 + 59, nanosPerSecond + fraction, cs)
  else some (minutes * 60 + second, fraction, cs)

/-- Exactly two digits. -/
def digitPair? : List Char → Option (Nat × List Char)
  | a :: b :: rest => if a.isDigit ∧ b.isDigit then some (natOfDigits [a, b], rest) else none
  | _ => none

/-- An offset from universal time behind its sign, in seconds: hours and minutes with or without a
colon, less than a day. -/
def offset? (cs : List Char) : Option (Nat × List Char) := do
  let (hours, cs) ← digitPair? cs
  let (minutes, cs) ← digitPair? (cs.dropWhile fun c => c == ':' || isBlankChar c)
  if hours < 24 ∧ minutes < 60 then some ((hours * 60 + minutes) * 60, cs) else none

/-- The zone that ends an instant, in seconds ahead of universal time. -/
def zone? (cs : List Char) : Option (Int × List Char) :=
  match cs with
  | '+' :: rest => (offset? rest).map fun (n, rest) => ((n : Int), rest)
  | '-' :: rest => (offset? rest).map fun (n, rest) => (-(n : Int), rest)
  | '\u2212' :: rest => (offset? rest).map fun (n, rest) => (-(n : Int), rest)
  | c :: rest =>
    if c = 'Z' ∨ c = 'z' then some (0, rest)
    else if (cs.take 3).map Char.toLower = ['u', 't', 'c'] then some (0, cs.drop 3)
    else none
  | [] => none

/-- Whether the clock has the days of this year. -/
def hasYear (year : Int) : Bool :=
  -262143 ≤ year && year ≤ 262142

/-- **The instant that a text stands for.** -/
def parse? (s : String) : Option Instant := do
  let (date, cs) ← date? s.toList
  let cs ←
    match cs with
    | c :: rest => if c = 'T' ∨ c = 't' ∨ c = ' ' then some rest else none
    | [] => none
  let (second, fraction, cs) ← timeOfDay? cs
  let (ahead, cs) ← zone? (skipBlank cs)
  if (skipBlank cs).isEmpty ∧ hasYear date.year ∧ date.isValid then
    at? (date.dayNumber * secondsPerDay + second - ahead) fraction
  else none

end Gathering.Instant
