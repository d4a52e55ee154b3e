/-!
# Sending to many, so many at a time

A fan-out starts its sends in the order of the targets, so many at a time: when
one ends, the next one starts. A send that takes longer than the time limit is
cut off when the limit is reached; one that takes exactly as long is not. The
sends end in the order of time, and those that end at one instant end in the
order in which they were started.

The machine does not know what a send does. Whoever runs it says how long the
send to a target takes when it starts, and what comes of it when it ends; both
may depend on a state of theirs. Times are counts of nanoseconds.

`run` goes on until every send has ended and jumps from end to end. `runUntil`
stops at an instant.
-/

namespace Gathering

/-- A send under way, or one that has ended. -/
structure Flight (τ : Type) where
  /-- To whom it goes. -/
  target : τ
  /-- When it was started. -/
  startedAt : Nat
  /-- When it ends. -/
  endsAt : Nat
  /-- Whether the time limit ends it. -/
  cutOff : Bool

/-- **Sends to many targets.** -/
structure FanOut (τ ρ : Type) where
  /-- How many sends are under way at most. -/
  width : Nat
  /-- How long a send may take. -/
  limit : Nat
  /-- The targets whose sends have not been started. -/
  waiting : List τ
  /-- The sends under way, in the order in which they were started. -/
  flying : List (Flight τ) := []
  /-- The sends that have ended and what came of them, in the order in which they ended. -/
  ended : List (Flight τ × ρ) := []

namespace FanOut

variable {τ ρ σ : Type}

/-- The flight that ends first, and the others in their order. Of flights that end at one instant
the one that was started first is taken. -/
def soonest : List (Flight τ) → Option (Flight τ × List (Flight τ))
  | [] => none
  | f :: fs =>
    match soonest fs with
    | none => some (f, fs)
    | some (g, others) => if f.endsAt ≤ g.endsAt then some (f, fs) else some (g, f :: others)

/-- When the next send ends. -/
def nextEnd (fan : FanOut τ ρ) : Option Nat :=
  (soonest fan.flying).map (·.1.endsAt)

/-- Whether every send has ended. -/
def isOver (fan : FanOut τ ρ) : Bool :=
  fan.waiting.isEmpty && fan.flying.isEmpty

/-- The send to a target that is started now and takes so long if it is let. -/
def flight (fan : FanOut τ ρ) (target : τ) (now duration : Nat) : Flight τ where
  target := target
  startedAt := now
  endsAt := now + min duration fan.limit
  cutOff := fan.limit < duration

/-- The next target, if a send can be started. -/
def startable? (fan : FanOut τ ρ) : Option (τ × List τ) :=
  match fan.waiting with
  | [] => none
  | t :: ts => if fan.flying.length < fan.width then some (t, ts) else none

/-- Starts a send. -/
def start (fan : FanOut τ ρ) (f : Flight τ) (waiting : List τ) : FanOut τ ρ :=
  { fan with waiting, flying := fan.flying ++ [f] }

/-- Ends a send. -/
def land (fan : FanOut τ ρ) (f : Flight τ) (others : List (Flight τ)) (result : ρ) : FanOut τ ρ :=
  { fan with flying := others, ended := fan.ended ++ [(f, result)] }

/-- Who a fan-out runs for. -/
structure Carrier (τ ρ σ : Type) where
  /-- How long the send to a target takes if it is let, at the time it is started. -/
  duration : σ → τ → Nat
  /-- What comes of a send when it ends. -/
  outcome : σ → Flight τ → ρ × σ

/-- **One step**: starts the next send if one can be started, and else ends the send that ends
first. The time is that of the step; nothing more happens once the fan-out is over. -/
def step? (carrier : Carrier τ ρ σ) (now : Nat) (fan : FanOut τ ρ) (s : σ) :
    Option (Nat × FanOut τ ρ × σ) :=
  match fan.startable? with
  | some (t, ts) => some (now, fan.start (fan.flight t now (carrier.duration s t)) ts, s)
  | none =>
    match soonest fan.flying with
    | none => none
    | some (f, others) =>
      let (result, s) := carrier.outcome s f
      some (max now f.endsAt, fan.land f others result, s)

/-- How many steps are left. -/
def stepsLeft (fan : FanOut τ ρ) : Nat :=
  2 * fan.waiting.length + fan.flying.length

/-- At most so many steps. -/
def runFor (carrier : Carrier τ ρ σ) : Nat → Nat → FanOut τ ρ → σ → Nat × FanOut τ ρ × σ
  | 0, now, fan, s => (now, fan, s)
  | n + 1, now, fan, s =>
    match fan.step? carrier now s with
    | none => (now, fan, s)
    | some (now, fan, s) => runFor carrier n now fan s

/-- **Runs a fan-out to its end**; says when that is. -/
def run (carrier : Carrier τ ρ σ) (now : Nat) (fan : FanOut τ ρ) (s : σ) :
    Nat × FanOut τ ρ × σ :=
  fan.runFor carrier fan.stepsLeft now s

/-- At most so many of the steps that happen up to now. -/
def runUntilFor (carrier : Carrier τ ρ σ) (now : Nat) : Nat → FanOut τ ρ → σ → FanOut τ ρ × σ
  | 0, fan, s => (fan, s)
  | n + 1, fan, s =>
    match fan.step? carrier now s with
    | none => (fan, s)
    | some (time, next, s') => if time ≤ now then runUntilFor carrier now n next s' else (fan, s)

/-- **Runs a fan-out up to now**, through everything that happens until then. -/
def runUntil (carrier : Carrier τ ρ σ) (now : Nat) (fan : FanOut τ ρ) (s : σ) : FanOut τ ρ × σ :=
  fan.runUntilFor carrier now fan.stepsLeft s

/-- Ends all sends with one result, those under way first, and the others without starting them. -/
def abandon (fan : FanOut τ ρ) (now : Nat) (result : ρ) : FanOut τ ρ :=
  let stopped := fan.flying.map fun f => { f with endsAt := now }
  let skipped := fan.waiting.map fun t =>
    { target := t, startedAt := now, endsAt := now, cutOff := false }
  { fan with
    waiting := []
    flying := []
    ended := fan.ended ++ (stopped ++ skipped).map (·, result) }

/-- What came of each target, in the order in which the sends ended. -/
def results (fan : FanOut τ ρ) : List (τ × ρ) :=
  fan.ended.map fun e => (e.1.target, e.2)

end FanOut

end Gathering
