/-!
# Spans of time

A span is a length of time in whole nanoseconds: whole seconds that fit 64 bits
and a fraction below one second. It has no sign. Adding and multiplying spans
stops at the longest one.

A span too long for a signed count of milliseconds in 64 bits has no **signed
form**; whoever moves an instant by a span has to say what that means.
-/

namespace Gathering

/-- How many nanoseconds one second has. -/
def nanosPerSecond : Nat := 1000000000

/-- How many nanoseconds one millisecond has. -/
def nanosPerMilli : Nat := 1000000

/-- **A length of time.** -/
structure Span where
  /-- The length in nanoseconds. -/
  nanos : Nat
  /-- The whole seconds fit 64 bits. -/
  lt_bound : nanos < (1 <<< 64) * 1000000000
  deriving DecidableEq

namespace Span

/-- The span of so many nanoseconds, or the longest span. -/
def saturate (nanos : Nat) : Span where
  nanos := min nanos ((1 <<< 64) * 1000000000 - 1)
  lt_bound := by omega

/-- The span of no length. -/
def zero : Span := ⟨0, by decide⟩

instance : Inhabited Span := ⟨zero⟩

/-- The span of so many seconds, or the longest span. -/
def ofSeconds (secs : Nat) : Span :=
  saturate (secs * nanosPerSecond)

/-- The span of so many milliseconds, or the longest span. -/
def ofMillis (millis : Nat) : Span :=
  saturate (millis * nanosPerMilli)

/-- The span of so many microseconds, or the longest span. -/
def ofMicros (micros : Nat) : Span :=
  saturate (micros * 1000)

/-- The whole seconds of a span. -/
def secs (d : Span) : Nat := d.nanos / nanosPerSecond

/-- What is left of a span beyond its whole seconds, in nanoseconds. -/
def subsecNanos (d : Span) : Nat := d.nanos % nanosPerSecond

/-- The whole milliseconds of a span. -/
def millis (d : Span) : Nat := d.nanos / nanosPerMilli

/-- The two spans one after the other, or the longest span. -/
def add (d e : Span) : Span := saturate (d.nanos + e.nanos)

instance : Add Span := ⟨add⟩

/-- The span so many times, or the longest span. -/
def times (d : Span) (n : Nat) : Span := saturate (d.nanos * n)

/-- The longest span with a signed form, in nanoseconds: the greatest 64-bit count of
milliseconds. -/
def longestSigned : Nat := ((1 <<< 63) - 1) * 1000000

/-- The length as a signed number of nanoseconds, if it is not too long for one. -/
def signed? (d : Span) : Option Int :=
  if d.nanos ≤ longestSigned then some d.nanos else none

end Span

end Gathering
