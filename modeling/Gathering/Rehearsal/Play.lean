import Gathering.Rehearsal.World

/-!
# Playing a rehearsal

A rehearsal follows one program in the foreground and the sweepers behind it.
Whoever can go on does so; time stands still meanwhile. When all wait, the clock
jumps to the next time at which one of them has something to do. The foreground
goes first at each instant, and the sweepers follow in the order in which they
stand in the line.

The program in the foreground can be called off at a time. What it does at that
very time comes first.
-/

namespace Gathering.Rehearsal

variable {α : Type}

/-- The outreach message of a batch to one of its targets. -/
def messageTo (batch : Batch) (target : Participant) : Message :=
  .outreach batch.kind batch.event target

/-- How the sends of a batch go in the world. -/
def carrierOf (batch : Batch) : FanOut.Carrier Participant (Except Error Unit) World where
  duration w target := w.sendDelay (messageTo batch target)
  outcome w flight :=
    if flight.cutOff then (.error .timeout, w) else w.deliver (messageTo batch flight.target)

/-- The sends of a batch before the first one is started. -/
def sendingOf (batch : Batch) : Sending where
  width := batch.width
  limit := batch.limit.nanos
  waiting := batch.targets

/-- Lets the sends of a batch go on up to now, or ends them all if the program was called off. -/
def sendOn (batch : Batch) (cancelled : Bool) (fan : Sending) (w : World) : Sending × World :=
  if cancelled then (fan.abandon w.clock (.error .cancelled), w)
  else fan.runUntil (carrierOf batch) w.clock w

/-- **Runs a program until it ends or has to wait.** -/
def run (cancelled : Bool) : Work α → World → Thread α × World
  | .done a, w => (.ended a, w)
  | .ask (.request r) next, w =>
    if w.delayOf r = 0 then
      let (answer, w) := w.answer cancelled r
      run cancelled (next answer) w
    else
      let (place, w) := w.takePlace
      (.paused (w.clock + w.delayOf r) place r next, w)
  | .ask (.fanOut batch) next, w =>
    let (fan, w) := sendOn batch cancelled (sendingOf batch) w
    if fan.isOver then run cancelled (next fan.results) w
    else
      let (place, w) := w.takePlace
      (.sending batch fan [(w.clock, place)] next, w)
  | .ask (.startSweeper s c) next, w =>
    let (number, w) := w.startSweeper s c
    run cancelled (next number) w
  | .ask (.stopSweeper number patience) next, w =>
    let w := w.signalStop number
    match w.ending? number with
    | some ended => run cancelled (next ended) w
    | none => (.waiting number (patience.map fun d => w.clock + d.nanos) next, w)

/-- Whether a thread can go on. -/
def isReady (cancelled : Bool) (w : World) : Thread α → Bool
  | .ended _ => false
  | .paused wake _ _ _ => wake ≤ w.clock
  | .sending _ fan _ _ => cancelled || hasCome w.clock fan.nextEnd
  | .waiting number deadline _ => (w.ending? number).isSome || hasCome w.clock deadline

/-- Lets a thread go on, if it can. -/
def goOn (cancelled : Bool) (thread : Thread α) (w : World) : Thread α × World :=
  if isReady cancelled w thread then
    match thread with
    | .ended a => (.ended a, w)
    | .paused _ _ r next =>
      let (answer, w) := w.answer cancelled r
      run cancelled (next answer) w
    | .sending batch fan places next =>
      let (fan, w) := sendOn batch cancelled fan w
      if fan.isOver then run cancelled (next fan.results) w
      else
        let (place, w) := w.takePlace
        (.sending batch fan ((w.clock, place) :: places) next, w)
    | .waiting number _ next => run cancelled (next ((w.ending? number).getD false)) w
  else (thread, w)

/-! ## Sweepers -/

/-- Lets a sweeper that waits for its tick go on: it sweeps if the tick has come, and again as long
as the next tick has come and the sweep has ended. -/
def tickOn (s : Sweeper) (clock : Nat) (ticker : Ticker) (w : World) : Phase × World :=
  if s.stopped then (.over, w)
  else if _h : ticker.due ≤ clock then
    match run s.stopped (s.scheduler.sweep s.batchSize).run w with
    | (.ended _, w) => tickOn s clock (ticker.tick clock) w
    | (sweep, w) => (.sweeping (ticker.tick clock) sweep, w)
  else
    let (place, w) := w.takePlace
    (.idle ticker place, w)
termination_by clock + 1 - ticker.due
decreasing_by
  have := ticker.due_lt_due_tick clock
  omega

/-- Lets a sweeper go on. -/
def sweepOn (s : Sweeper) (w : World) : Phase × World :=
  match s.phase with
  | .over => (.over, w)
  | .failing _ | .broken => (.broken, w)
  | .idle ticker _ => tickOn s w.clock ticker w
  | .sweeping ticker sweep =>
    match goOn s.stopped sweep w with
    | (.ended _, w) => tickOn s w.clock ticker w
    | (sweep, w) => (.sweeping ticker sweep, w)

/-- Lets the sweeper with a number go on. -/
def sweeperOn (w : World) (number : Nat) : World :=
  match w.sweepers[number]? with
  | none => w
  | some s =>
    let (phase, w) := sweepOn s w
    w.setSweeper number { s with phase }

/-- Lets the sweepers that can go on do so, one after the other as they stand in the line. -/
def sweepersOn (w : World) : World :=
  w.inLine.foldl sweeperOn w

/-! ## Time -/

/-- The earlier of two times, of which either may be missing. -/
def earlier (s t : Option Nat) : Option Nat :=
  match s, t with
  | some s, some t => some (min s t)
  | some s, none => some s
  | none, t => t

/-- The next time at which something happens. -/
def nextTime (callOff : Option Nat) (main : Thread α) (w : World) : Option Nat :=
  let pending := callOff.filter (w.clock < ·)
  w.sweepers.foldl (fun t s => earlier t s.wake?) (earlier pending main.wake?)

/-- Plays on through so many instants at most, until the thread in the foreground has ended. -/
def playFor (callOff : Option Nat) : Nat → Bool → Thread α → World → Option α × World
  | 0, _, main, w => (main.result?, w)
  | n + 1, cancelled, main, w =>
    match main.result? with
    | some a => (some a, w)
    | none =>
      let w := sweepersOn w
      let calledOff := cancelled || hasCome w.clock callOff
      if isReady calledOff w main then
        let (main, w) := goOn calledOff main w
        playFor callOff n calledOff main w
      else
        match nextTime callOff main w with
        | none => (none, w)
        | some t =>
          let w := { w with clock := t }
          let (main, w) := goOn calledOff main w
          playFor callOff n calledOff main w

/-- Through how many instants a rehearsal plays at most. -/
def instantLimit : Nat := 1000000000000

/-- **Plays a program to its end**, if it ends in time. It can be called off after a time; after no
time means before it starts. -/
def play (program : Work α) (callOffAfter : Option Nat) (w : World) : Option α × World :=
  let callOff := callOffAfter.map (w.clock + ·)
  let cancelled := hasCome w.clock callOff
  let (main, w) := run cancelled program w
  playFor callOff instantLimit cancelled main w

/-- Lets time pass. -/
def sleep (nanos : Nat) (w : World) : Option Unit × World :=
  if nanos = 0 then (some (), w)
  else playFor none instantLimit false (.paused (w.clock + nanos) w.line .now fun _ => .done ()) w

end Gathering.Rehearsal
