import Gathering.Time.Span

/-!
# Ticks

A sweeper sweeps at once when it is started, and from then on at the points of a
grid: every so often from its start. A sweep may take longer than that. Then the
next tick comes at once, late, and the one after it is the next point of the
grid; the points between are left out.

A tick that is late by a trifle does not count as late, and the next tick is
reckoned from when it should have come.
-/

namespace Gathering

/-- **When the next tick is due**, and how far the points of the grid are apart. -/
structure Ticker where
  /-- When the next tick is due. -/
  due : Nat
  /-- How far the points of the grid are apart. -/
  period : Nat
  /-- The grid has points. -/
  period_pos : 0 < period

namespace Ticker

/-- How late a tick may be without counting as late: five milliseconds. -/
def tolerance : Nat := 5 * nanosPerMilli

/-- When the tick after one that comes now is due. -/
def dueAfter (t : Ticker) (now : Nat) : Nat :=
  if t.due + tolerance < now then now + t.period - (now - t.due) % t.period else t.due + t.period

/-- The ticker after a tick that comes now. -/
def tick (t : Ticker) (now : Nat) : Ticker :=
  { t with due := t.dueAfter now }

/-- A tick moves the next one on. -/
theorem due_lt_due_tick (t : Ticker) (now : Nat) : t.due < (t.tick now).due := by
  have hpos := t.period_pos
  have hmod : (now - t.due) % t.period < t.period := Nat.mod_lt _ hpos
  simp only [tick, dueAfter]
  split <;> omega

end Ticker

end Gathering
