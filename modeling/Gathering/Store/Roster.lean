import Gathering.Event
import Gathering.Keyed
import Gathering.Participant

/-!
# The store of events and participants

Events by identifier, and participants in the order in which they were added. A
participant that is added again leaves the old place and goes to the end, so an
identifier occurs once.
-/

namespace Gathering

/-- **Events and their participants.** -/
structure Roster where
  /-- The events under their identifiers. -/
  events : Keyed Event
  /-- The participants in the order in which they were added. -/
  participants : List Participant

namespace Roster

/-- The store without events and participants. -/
def empty : Roster := ⟨.empty, []⟩

instance : Inhabited Roster := ⟨empty⟩

/-- Adds an event, in place of an older one with its identifier. -/
def insertEvent (r : Roster) (e : Event) : Roster :=
  { r with events := r.events.insert e.id e }

/-- Adds a participant at the end, in place of an older one with its identifier. -/
def insertParticipant (r : Roster) (p : Participant) : Roster :=
  { r with participants := r.participants.filter (·.id != p.id) ++ [p] }

/-- The event of an identifier. -/
def event? (r : Roster) (eventId : String) : Option Event :=
  r.events.find? eventId

/-- The participants of an event. -/
def participantsOf (r : Roster) (eventId : String) : List Participant :=
  r.participants.filter fun p => p.eventId = eventId

/-- The participant of an identifier. -/
def participant? (r : Roster) (participantId : String) : Option Participant :=
  r.participants.find? fun p => p.id = participantId

/-- Sets the status of an event. -/
def setEventStatus (r : Roster) (eventId : String) (status : EventStatus) : Except Error Roster :=
  match r.event? eventId with
  | none => .error (.notFound "event" eventId)
  | some e => .ok { r with events := r.events.insert eventId { e with status := status } }

/-- Sets what the first participant of an identifier has replied, among participants. -/
def setFirst (participantId : String) (status : Rsvp) : List Participant → List Participant
  | [] => []
  | p :: ps =>
    if p.id = participantId then { p with status := status } :: ps
    else p :: setFirst participantId status ps

/-- Sets what a participant has replied. -/
def setParticipantStatus (r : Roster) (participantId : String) (status : Rsvp) :
    Except Error Roster :=
  match r.participant? participantId with
  | none => .error (.notFound "participant" participantId)
  | some _ => .ok { r with participants := setFirst participantId status r.participants }

/-! ## Calls -/

/-- **A call of the store of events and participants.** -/
inductive Call where
  /-- Asks for an event. -/
  | getEvent (eventId : String)
  /-- Asks for the participants of an event. -/
  | listParticipants (eventId : String)
  /-- Asks for a participant. -/
  | getParticipant (participantId : String)
  /-- Sets the status of an event. -/
  | updateEventStatus (eventId : String) (status : EventStatus)
  /-- Sets what a participant has replied. -/
  | updateParticipantStatus (participantId : String) (status : Rsvp)
  deriving DecidableEq

/-- What a call of the store of events and participants answers. -/
abbrev Call.Answer : Call → Type
  | .getEvent _ => Option Event
  | .listParticipants _ => List Participant
  | .getParticipant _ => Option Participant
  | .updateEventStatus _ _ => Unit
  | .updateParticipantStatus _ _ => Unit

/-- **What a call does to the store.** -/
def perform (r : Roster) : (call : Call) → Except Error (call.Answer × Roster)
  | .getEvent eventId => .ok (r.event? eventId, r)
  | .listParticipants eventId => .ok (r.participantsOf eventId, r)
  | .getParticipant participantId => .ok (r.participant? participantId, r)
  | .updateEventStatus eventId status => (r.setEventStatus eventId status).map fun r' => ((), r')
  | .updateParticipantStatus participantId status =>
    (r.setParticipantStatus participantId status).map fun r' => ((), r')

end Roster

end Gathering
