import Gathering.Rehearsal.CallKind
import Gathering.Rehearsal.Thread

/-!
# The world of a rehearsal

A rehearsal runs the programs of this library in a world that is a value: the
stores, the cache, a clock that only moves when everybody waits, and what goes
wrong. Calls can be made to take time and to fail, so many times or always. A
**rival** sweeper can be let loose on the tasks at the worst moments.

Two clocks show the time. The clock of the cache counts nanoseconds since the
rehearsal began. The wall clock shows an instant; it runs with the other clock,
and it can be set.

Sends and leases are written down as they happen.
-/

namespace Gathering.Rehearsal

/-- What goes wrong with a kind of call. -/
structure Fault where
  /-- The error of the call. -/
  error : Error
  /-- How many more times it goes wrong; always, if nothing is said. -/
  left : Option Nat

/-- **What the rival does to the tasks.** -/
inductive Interference where
  /-- Nothing. -/
  | none
  /-- Fails every task that was listed, once, after the next list of tasks that are due. -/
  | earlierFailure
  /-- Cancels every task that was listed, after each list of tasks that are due. -/
  | skipAfterList
  /-- Claims a task before its lease is extended. -/
  | leaseTakeover
  /-- Claims a task before it is settled. -/
  | settleTakeover
  /-- Settles a task before it is cancelled. -/
  | processBeforeSkip
  deriving DecidableEq

/-- A call about a lease, and what was answered. -/
inductive LeaseCall where
  /-- A claim until a deadline. -/
  | claim (task : String) (deadline : Instant) (granted : Bool)
  /-- The extension of a lease until a deadline. -/
  | extension (task : String) (deadline : Instant) (granted : Bool)

/-- **The world of a rehearsal.** -/
structure World where
  /-- Nanoseconds since the rehearsal began. -/
  clock : Nat := 0
  /-- What the wall clock was set to. -/
  wall : Instant
  /-- When the wall clock was set. -/
  wallSetAt : Nat := 0
  /-- The tasks. -/
  tasks : TaskStore := .empty
  /-- The events and participants. -/
  roster : Roster := .empty
  /-- The locations. -/
  trail : Trail := .empty
  /-- The cache. -/
  cache : Cache.TimedMap := .empty
  /-- Whether sends only pretend: they succeed at once, and nothing is written down. -/
  silent : Bool := false
  /-- What goes wrong. -/
  faults : List (CallKind × Fault) := []
  /-- How long calls take, in nanoseconds. -/
  delays : List (CallKind × Nat) := []
  /-- What the rival does. -/
  interference : Interference := .none
  /-- How many identifiers were given. -/
  idsGiven : Nat := 0
  /-- What was sent, the first message at the front. -/
  sent : List Message := []
  /-- The calls about leases, the first one at the front. -/
  leases : List LeaseCall := []
  /-- The sweepers by number. -/
  sweepers : List Sweeper := []
  /-- How many places in the line were taken. -/
  line : Nat := 0

/-- The name of the rival. -/
def rivalId : String := "other-sweeper"

/-- How long the rival claims a task: five minutes. -/
def rivalLease : Span := .ofSeconds (5 * 60)

/-- The identifier with a number: a fixed beginning and twelve hexadecimal digits. -/
def identifier (n : Nat) : String :=
  let digits := Nat.toDigits 16 n
  "00000000-0000-4000-8000-" ++ String.ofList (List.replicate (12 - digits.length) '0' ++ digits)

namespace World

/-! ## Clocks -/

/-- What the wall clock shows. -/
def now (w : World) : Instant :=
  w.wall.add (.saturate (w.clock - w.wallSetAt))

/-- Sets the wall clock. -/
def setNow (w : World) (t : Instant) : World :=
  { w with wall := t, wallSetAt := w.clock }

/-! ## Faults and delays -/

/-- Makes a kind of call fail, in place of what was said about it before. -/
def setFault (w : World) (kind : CallKind) (fault : Fault) : World :=
  { w with faults := (kind, fault) :: w.faults.filter (·.1 != kind) }

/-- Lets all calls succeed again. -/
def recover (w : World) : World := { w with faults := [] }

/-- Makes a kind of call take so long. -/
def setDelay (w : World) (kind : CallKind) (nanos : Nat) : World :=
  { w with delays := (kind, nanos) :: w.delays.filter (·.1 != kind) }

/-- The error that a call meets now, if it meets one. -/
def strike (w : World) (kind : CallKind) : Option Error × World :=
  match w.faults.lookup kind with
  | none => (none, w)
  | some ⟨error, none⟩ => (some error, w)
  | some ⟨_, some 0⟩ => (none, w)
  | some ⟨error, some (n + 1)⟩ => (some error, w.setFault kind ⟨error, some n⟩)

/-- Makes a call unless it meets an error. -/
def unlessStruck {α : Type} (w : World) (kind : CallKind)
    (call : World → Except Error α × World) : Except Error α × World :=
  match w.strike kind with
  | (some e, w) => (.error e, w)
  | (none, w) => call w

/-- How long a kind of call takes. -/
def delayAt (w : World) (kind : CallKind) : Nat :=
  (w.delays.lookup kind).getD 0

/-- How long it takes to send a message. -/
def sendDelay (w : World) (m : Message) : Nat :=
  if w.silent then 0 else w.delayAt (.ofMessage m)

/-- How long it takes to answer a request. -/
def delayOf (w : World) : Request → Nat
  | .send m => w.sendDelay m
  | r => ((CallKind.ofRequest? r).map w.delayAt).getD 0

/-! ## The rival -/

/-- Lets the rival call the store of tasks, for better or worse. -/
def rivalCalls (w : World) (call : TaskStore.Call) : World :=
  match w.tasks.perform w.now call with
  | .ok (_, tasks) => { w with tasks }
  | .error _ => w

/-- Lets the rival claim a task. -/
def rivalClaims (w : World) (id : String) : World :=
  w.rivalCalls (.claim id rivalId (w.now.add rivalLease) w.now)

/-- What the rival does before a call. -/
def beforeCall (w : World) (call : TaskStore.Call) : World :=
  match w.interference, call with
  | .leaseTakeover, .extendLease id _ _ => w.rivalClaims id
  | .settleTakeover, .markProcessed id _ _ => w.rivalClaims id
  | .settleTakeover, .incrementRetries id _ _ => w.rivalClaims id
  | .settleTakeover, .markFailed id _ _ _ => w.rivalClaims id
  | .processBeforeSkip, .markSkipped id at_ => w.rivalCalls (.markProcessed id rivalId at_)
  | _, _ => w

/-- What the rival does after the tasks that are due at an instant were listed. -/
def afterList (w : World) (at_ : Instant) (listed : List Task) : World :=
  match w.interference with
  | .earlierFailure =>
    listed.foldl (fun w t => w.rivalCalls (.incrementRetries t.id rivalId "earlier failure"))
      { w with interference := .none }
  | .skipAfterList => listed.foldl (fun w t => w.rivalCalls (.markSkipped t.id at_)) w
  | _ => w

/-- Until when a claim is made: a rival that wants to take the task over needs a lease that is not
in force. -/
def claimDeadline (w : World) (deadline now : Instant) : Instant :=
  match w.interference with
  | .leaseTakeover | .settleTakeover => now
  | _ => deadline

/-! ## Answers -/

/-- Calls the store of tasks as it is. -/
def performTasks (w : World) (call : TaskStore.Call) : Except Error call.Answer × World :=
  match w.tasks.perform w.now call with
  | .ok (answer, tasks) => (.ok answer, { w with tasks })
  | .error e => (.error e, w)

/-- Writes down a call about a lease. -/
def noteLease (w : World) (call : LeaseCall) : World :=
  { w with leases := w.leases ++ [call] }

/-- **Calls the store of tasks while the rival is about**; calls about leases are written down with
the deadline that was asked for. -/
def callTasks (w : World) : (call : TaskStore.Call) → Except Error call.Answer × World
  | .claim id owner deadline now =>
    match w.performTasks (.claim id owner (w.claimDeadline deadline now) now) with
    | (.ok claimed, w) => (.ok claimed, w.noteLease (.claim id deadline claimed.isSome))
    | (.error e, w) => (.error e, w)
  | .extendLease id owner deadline =>
    match (w.beforeCall (.extendLease id owner deadline)).performTasks
      (.extendLease id owner deadline) with
    | (.ok granted, w) => (.ok granted, w.noteLease (.extension id deadline granted))
    | (.error e, w) => (.error e, w)
  | .listDue at_ limit =>
    match w.performTasks (.listDue at_ limit) with
    | (.ok listed, w) => (.ok listed, w.afterList at_ listed)
    | (.error e, w) => (.error e, w)
  | call => (w.beforeCall call).performTasks call

/-- Calls the store of events and participants. -/
def callRoster (w : World) (call : Roster.Call) : Except Error call.Answer × World :=
  match w.roster.perform call with
  | .ok (answer, roster) => (.ok answer, { w with roster })
  | .error e => (.error e, w)

/-- Calls the history of locations. -/
def callTrail (w : World) (call : Trail.Call) : Except Error call.Answer × World :=
  let (answer, trail) := w.trail.perform call
  (.ok answer, { w with trail })

/-- Calls the cache. -/
def callCache (w : World) (call : Cache.Call) : Except Error call.Answer × World :=
  let (answer, cache) := w.cache.perform w.clock call
  (.ok answer, { w with cache })

/-- Sends a message: writes it down, and then fails if it has to. -/
def deliver (w : World) (m : Message) : Except Error Unit × World :=
  if w.silent then (.ok (), w)
  else { w with sent := w.sent ++ [m] }.unlessStruck (.ofMessage m) fun w => (.ok (), w)

/-- **Answers a request** of a program that was called off or not. -/
def answer (w : World) (cancelled : Bool) : (r : Request) → r.Answer × World
  | .now => (w.now, w)
  | .freshId => (identifier (w.idsGiven + 1), { w with idsGiven := w.idsGiven + 1 })
  | .isCancelled => (cancelled, w)
  | .tasks call => w.unlessStruck (.ofTasks call) (·.callTasks call)
  | .roster call => w.unlessStruck (.ofRoster call) (·.callRoster call)
  | .trail call => w.unlessStruck (.ofTrail call) (·.callTrail call)
  | .cache call => w.unlessStruck (.ofCache call) (·.callCache call)
  | .send m => w.deliver m

/-! ## Sweepers -/

/-- Takes the next place in the line. -/
def takePlace (w : World) : Nat × World :=
  (w.line, { w with line := w.line + 1 })

/-- Starts a sweeper; the answer is its number. -/
def startSweeper (w : World) (s : Scheduler) (c : SweeperConfig) : Nat × World :=
  let (place, w) := w.takePlace
  (w.sweepers.length, { w with sweepers := w.sweepers ++ [Sweeper.begin s c w.clock place] })

/-- Puts a sweeper in place of the one with a number. -/
def setSweeper (w : World) (number : Nat) (s : Sweeper) : World :=
  { w with sweepers := w.sweepers.set number s }

/-- Tells a sweeper to stop. -/
def signalStop (w : World) (number : Nat) : World :=
  let (place, w) := w.takePlace
  { w with
    sweepers := w.sweepers.modify number fun s =>
      { s with stopPlace := s.stopPlace.or (some place) } }

/-- Whether a sweeper came to its end in good order; nothing as long as it goes on. One that was
never started has ended. -/
def ending? (w : World) (number : Nat) : Option Bool :=
  match w.sweepers[number]? with
  | some s => s.ending?
  | none => some true

/-- The sweepers that can go on now by number, in the order of their places in the line. -/
def inLine (w : World) : List Nat :=
  let standing := w.sweepers.zipIdx.filterMap fun (s, number) =>
    (s.place? w.clock).map fun place => (place, number)
  (standing.mergeSort fun a b => a.1 ≤ b.1).map (·.2)

end World

end Gathering.Rehearsal
