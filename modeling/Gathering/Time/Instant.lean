import Gathering.Time.Calendar
import Gathering.Time.Span

/-!
# Instants

An instant is a point of universal time: a second, counted from
1970-01-01T00:00:00Z, and how far it has gone. The clock has a first and a last
second, and counts sixty to every minute.

## Leap seconds

Any minute may be followed by a **leap second**, written as its second 60. It
belongs to the last second of the minute, which then lasts twice as long: the
fraction goes on beyond one whole second. Thus a leap second comes after all of
the minute and before all of the next one.

Within a leap second time can be reckoned as anywhere. Who moves on out of it
reckons from the second before, as if it had not been; who moves back out of it
reckons from the second after, and it counts.

## Saturation

Moving an instant by a span stops at the end of the clock. There are two ways
to get there – the span may have no signed form, or the sum may lie beyond the
clock – and both stop at the same end.
-/

namespace Gathering

/-- **A point of universal time** between the first and the last second of the clock. -/
structure Instant where
  /-- The second, counted from 1970-01-01T00:00:00Z. -/
  second : Int
  /-- How far it has gone, in nanoseconds. -/
  fraction : Nat
  /-- Not before -262143-01-01T00:00:00Z. -/
  first_le : -8334601228800 ≤ second
  /-- Not after +262142-12-31T23:59:59Z. -/
  le_last : second ≤ 8210266876799
  /-- It has not gone beyond its end; only the last second of a minute can be a long one. -/
  fraction_lt : fraction < 1000000000 ∨ fraction < 2000000000 ∧ second % 60 = 59
  deriving DecidableEq

namespace Instant

/-- The first instant of the clock. -/
def first : Instant := ⟨-8334601228800, 0, by decide, by decide, by decide⟩

/-- The last instant of the clock, leap seconds apart. -/
def last : Instant := ⟨8210266876799, 999999999, by decide, by decide, by decide⟩

/-- The instant from which seconds are counted. -/
def epoch : Instant := ⟨0, 0, by decide, by decide, by decide⟩

instance : Inhabited Instant := ⟨epoch⟩

/-- Whether an instant lies in a leap second. -/
def isLeap (t : Instant) : Bool := nanosPerSecond ≤ t.fraction

/-- Nanoseconds since 1970-01-01T00:00:00Z. A leap second has those of the second after it. -/
def nanos (t : Instant) : Int := t.second * nanosPerSecond + t.fraction

/-! ## Order -/

instance : LE Instant :=
  ⟨fun s t => s.second < t.second ∨ s.second = t.second ∧ s.fraction ≤ t.fraction⟩

instance : LT Instant :=
  ⟨fun s t => s.second < t.second ∨ s.second = t.second ∧ s.fraction < t.fraction⟩

instance (s t : Instant) : Decidable (s ≤ t) :=
  inferInstanceAs (Decidable (s.second < t.second ∨ s.second = t.second ∧ s.fraction ≤ t.fraction))

instance (s t : Instant) : Decidable (s < t) :=
  inferInstanceAs (Decidable (s.second < t.second ∨ s.second = t.second ∧ s.fraction < t.fraction))

/-! ## Arithmetic -/

/-- The instant at a second and a fraction of it, if the clock has it. -/
def at? (second : Int) (fraction : Nat) : Option Instant :=
  if h : (-8334601228800 ≤ second ∧ second ≤ 8210266876799) ∧
      (fraction < 1000000000 ∨ fraction < 2000000000 ∧ second % 60 = 59) then
    some ⟨second, fraction, h.1.1, h.1.2, h.2⟩
  else none

/-- The instant so many nanoseconds from the epoch outside of leap seconds, if the clock has it. -/
def ofNanos? (n : Int) : Option Instant :=
  at? (n / nanosPerSecond) (n % nanosPerSecond).toNat

/-- **The instant a signed number of nanoseconds later**, if the clock has it. A leap second is left
forward as if it had not been, and backward as if it were the second after it. -/
def shift? (t : Instant) (by_ : Int) : Option Instant :=
  let n := t.nanos + by_
  let start := (t.second + 1) * nanosPerSecond
  if ¬ t.isLeap ∨ n < start then ofNanos? n
  else if n < start + nanosPerSecond then at? t.second (n - t.second * nanosPerSecond).toNat
  else ofNanos? (n - nanosPerSecond)

/-- **The instant a span later**, or the last instant. -/
def add (t : Instant) (d : Span) : Instant :=
  (d.signed?.bind t.shift?).getD last

/-- **The instant a span earlier**, or the first instant. -/
def sub (t : Instant) (d : Span) : Instant :=
  (d.signed?.bind fun n => t.shift? (-n)).getD first

/-- The second of the day. -/
def secondOfDay (t : Instant) : Int := t.second % 86400

/-- How many nanoseconds an instant is ahead of another. Whether a leap second of one of them lies
between the two is told from the times of day. -/
def since (t start : Instant) : Int :=
  let n := t.nanos - start.nanos
  if start.isLeap ∧ start.secondOfDay < t.secondOfDay then n + nanosPerSecond
  else if t.isLeap ∧ t.secondOfDay < start.secondOfDay then n - nanosPerSecond
  else n

/-- **What is left until an instant**: nothing once it has been reached. -/
def remaining (until_ now : Instant) : Option Span :=
  let left := until_.since now
  if left ≤ 0 then none else some (Span.saturate left.toNat)

end Instant

/-- How many seconds one day has. -/
def secondsPerDay : Int := 86400

example : Instant.first.second = Date.dayNumber ⟨-262143, 1, 1⟩ * secondsPerDay := by decide

example : Instant.last.second + 1 = Date.dayNumber ⟨262143, 1, 1⟩ * secondsPerDay := by decide

end Gathering
