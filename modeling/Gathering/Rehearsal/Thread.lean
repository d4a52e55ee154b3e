import Gathering.FanOut
import Gathering.Scheduler.Sweep
import Gathering.Ticker

/-!
# Programs that wait

A program under way is either finished or waits for something: for the end of a
call that takes time, for the next send to end, or for a sweeper to stop. A
thread is a program together with what it waits for.

A sweeper is a thread that runs one sweep after another, on the ticks of its
ticker, until it is told to stop. A stop calls the sweep under way off and keeps
the next one from being started.

Several sweepers may have something to do at one instant. They stand in a
**line**: whoever begins to wait for a time takes the next place in the line, and
at that time those who wait go on in the order of their places. A sweeper that is
started or told to stop takes its place at that moment.
-/

namespace Gathering.Rehearsal

/-- The sends of a batch. -/
abbrev Sending := FanOut Participant (Except Error Unit)

/-- **A program under way.** -/
inductive Thread (α : Type) where
  /-- It has ended. -/
  | ended (result : α)
  /-- It waits at its place in the line until a request is answered. -/
  | paused (wake place : Nat) (request : Request) (next : request.Answer → Work α)
  /-- It waits until a batch has been sent; `places` tells for the times at which sends were started
  which place in the line they took. -/
  | sending (batch : Batch) (fan : Sending) (places : List (Nat × Nat))
      (next : List (Participant × Except Error Unit) → Work α)
  /-- It waits until a sweeper has stopped, or until a deadline. -/
  | waiting (sweeper : Nat) (deadline : Option Nat) (next : Bool → Work α)

namespace Thread

variable {α : Type}

/-- The result of a thread that has ended. -/
def result? : Thread α → Option α
  | ended a => some a
  | _ => none

/-- When a thread has to be looked at again, unless something else happens before. -/
def wake? : Thread α → Option Nat
  | ended _ => none
  | paused wake _ _ _ => some wake
  | sending _ fan _ _ => fan.nextEnd
  | waiting _ deadline _ => deadline

/-- Its place in the line of those who wait for the same time. -/
def place : Thread α → Nat
  | paused _ place _ _ => place
  | sending _ fan places _ =>
    ((FanOut.soonest fan.flying).bind fun f => places.lookup f.1.startedAt).getD 0
  | _ => 0

/-- Whether a stop wakes it: one that sends gives up its sends. -/
def heedsStop : Thread α → Bool
  | sending _ _ _ _ => true
  | _ => false

end Thread

/-- Whether a time has come. -/
def hasCome (now : Nat) (time : Option Nat) : Bool :=
  match time with
  | some t => t ≤ now
  | none => false

/-- What a sweeper does. -/
inductive Phase where
  /-- It will break down at its place in the line, because its ticks lie no time apart. -/
  | failing (place : Nat)
  /-- It waits for its next tick at its place in the line. -/
  | idle (ticker : Ticker) (place : Nat)
  /-- It sweeps. -/
  | sweeping (ticker : Ticker) (sweep : Thread (Except Error SweepReport))
  /-- It has stopped. -/
  | over
  /-- It has broken down. -/
  | broken

/-- **A sweeper in the background.** -/
structure Sweeper where
  /-- The scheduler whose tasks it sweeps. -/
  scheduler : Scheduler
  /-- How many tasks one sweep takes on. -/
  batchSize : Nat
  /-- The place in the line that it took when it was told to stop, if it was. -/
  stopPlace : Option Nat := none
  /-- What it does. -/
  phase : Phase

namespace Sweeper

/-- A sweeper that is started now. Without time between its sweeps it cannot sweep at all. -/
def begin (scheduler : Scheduler) (c : SweeperConfig) (now place : Nat) : Sweeper where
  scheduler := scheduler
  batchSize := c.batchSize
  phase := if h : 0 < c.interval.nanos then .idle ⟨now, c.interval.nanos, h⟩ place
    else .failing place

/-- Whether it was told to stop. -/
def stopped (s : Sweeper) : Bool := s.stopPlace.isSome

/-- Whether it came to its end in good order; nothing as long as it goes on. -/
def ending? (s : Sweeper) : Option Bool :=
  match s.phase with
  | .over => some true
  | .broken => some false
  | _ => none

/-- When it has to be looked at again. -/
def wake? (s : Sweeper) : Option Nat :=
  match s.phase with
  | .idle ticker _ => some ticker.due
  | .sweeping _ sweep => sweep.wake?
  | .failing _ | .over | .broken => none

/-- **Its place among those who can go on now**, if it is one of them: the place at which it waited
for this time, or else the one that a stop gave it. -/
def place? (s : Sweeper) (now : Nat) : Option Nat :=
  match s.phase with
  | .failing place => some place
  | .idle ticker place => if ticker.due ≤ now then some place else s.stopPlace
  | .sweeping _ sweep =>
    if hasCome now sweep.wake? then some sweep.place
    else if sweep.heedsStop then s.stopPlace else none
  | .over | .broken => none

end Sweeper

end Gathering.Rehearsal
