import Gathering.Cache.TimedMap
import Gathering.Outreach
import Gathering.Program
import Gathering.Scheduler.Basic
import Gathering.Store.Roster
import Gathering.Store.Tasks
import Gathering.Store.Trail

/-!
# What programs ask for

The services of this library are programs, and this module lists what they may
ask for. A **request** is answered at one instant: what time it is, a call of a
store or the cache, a message. A **fan-out** sends to many and takes time. Two
more effects start and stop a sweeper in the background.

Calls may fail, and a program sees the error as the answer. A `Job` is a program
that stops at the first error it does not handle.
-/

namespace Gathering

/-- A message that goes out through the notification gateway. -/
inductive Message where
  /-- An outreach to a participant of an event. -/
  | outreach (kind : Outreach) (event : Event) (participant : Participant)
  /-- Tells a participant of an event how many minutes are left to the meeting point. -/
  | eta (event : Event) (participant : Participant) (minutes : Int)
  /-- Any text to any contact. -/
  | text (contact body : String)
  deriving DecidableEq

/-- What is answered at one instant. -/
inductive Request where
  /-- What time it is. -/
  | now
  /-- An identifier that was never given before. -/
  | freshId
  /-- Whether the work was called off. -/
  | isCancelled
  /-- A call of the store of tasks. -/
  | tasks (call : TaskStore.Call)
  /-- A call of the store of events and participants. -/
  | roster (call : Roster.Call)
  /-- A call of the history of locations. -/
  | trail (call : Trail.Call)
  /-- A call of the cache. -/
  | cache (call : Cache.Call)
  /-- Sends a message. -/
  | send (m : Message)

/-- The answer to a request; a call answers with an error or what it asks for. -/
abbrev Request.Answer : Request → Type
  | .now => Instant
  | .freshId => String
  | .isCancelled => Bool
  | .tasks call => Except Error call.Answer
  | .roster call => Except Error call.Answer
  | .trail call => Except Error call.Answer
  | .cache call => Except Error call.Answer
  | .send _ => Except Error Unit

/-- An outreach to many participants of an event. -/
structure Batch where
  /-- What is sent. -/
  kind : Outreach
  /-- The event. -/
  event : Event
  /-- To whom it is sent. -/
  targets : List Participant
  /-- How many sends run at a time. -/
  width : Nat
  /-- How long one send may take. -/
  limit : Span
  deriving DecidableEq

/-- **What a program may ask for.** -/
inductive Effect where
  /-- Something that is answered at one instant. -/
  | request (r : Request)
  /-- Sends to many; the answer says what came of each send, in the order in which they ended. -/
  | fanOut (batch : Batch)
  /-- Starts a sweeper in the background; the answer is its number. -/
  | startSweeper (scheduler : Scheduler) (config : SweeperConfig)
  /-- Tells a sweeper to stop and waits for it, so long at most if a time is given; the answer says
  whether it has stopped. -/
  | stopSweeper (number : Nat) (patience : Option Span)

/-- The answer to an effect. -/
abbrev Effect.Answer : Effect → Type
  | .request r => r.Answer
  | .fanOut _ => List (Participant × Except Error Unit)
  | .startSweeper _ _ => Nat
  | .stopSweeper _ _ => Bool

/-- **A program of this library.** -/
abbrev Work (α : Type) := Program Effect.Answer α

/-- **A program of this library that may fail.** -/
abbrev Job (α : Type) := ExceptT Error (Program Effect.Answer) α

namespace Work

/-- Asks for something that is answered at one instant. -/
def request (r : Request) : Work r.Answer := Program.call (Effect.request r)

/-- Asks what time it is. -/
def now : Work Instant := request .now

/-- Asks for a new identifier. -/
def freshId : Work String := request .freshId

/-- Asks whether the work was called off. -/
def isCancelled : Work Bool := request .isCancelled

end Work

namespace Job

/-- Calls the store of tasks. -/
def tasks (call : TaskStore.Call) : Job call.Answer := ExceptT.mk (Work.request (.tasks call))

/-- Calls the store of events and participants. -/
def roster (call : Roster.Call) : Job call.Answer := ExceptT.mk (Work.request (.roster call))

/-- Calls the history of locations. -/
def trail (call : Trail.Call) : Job call.Answer := ExceptT.mk (Work.request (.trail call))

/-- Calls the cache. -/
def cache (call : Cache.Call) : Job call.Answer := ExceptT.mk (Work.request (.cache call))

/-- Sends a message. -/
def send (m : Message) : Job Unit := ExceptT.mk (Work.request (.send m))

/-- Asks what time it is. -/
def now : Job Instant := ExceptT.lift Work.now

/-- What is there, or the error that it is missing. -/
def found {α : Type} (kind id : String) : Option α → Job α
  | some a => pure a
  | none => throw (.notFound kind id)

/-- What a check has found out. -/
def checked {α : Type} (r : Except Error α) : Job α := ExceptT.mk (pure r)

end Job

end Gathering
