import Gathering.Participant

/-!
# Outreach

The three kinds of message that go to many participants of an event at once,
and to whom each is addressed.
-/

namespace Gathering

/-- A message to many participants of an event. -/
inductive Outreach where
  /-- Asks whether the participant will come. -/
  | confirmation
  /-- Reminds the participant of the event. -/
  | reminder
  /-- Asks the participant for a location. -/
  | location
  deriving DecidableEq, Repr

namespace Outreach

/-- The name of an outreach. -/
def name : Outreach → String
  | confirmation => "confirmation"
  | reminder => "reminder"
  | location => "location"

/-- **To whom an outreach is addressed**: those who have not replied are asked, and those who will
come are reminded and located. -/
def audience : Outreach → Rsvp
  | confirmation => .pending
  | reminder | location => .confirmed

/-- The participants of a list that an outreach is addressed to, in order. -/
def targets (o : Outreach) (participants : List Participant) : List Participant :=
  participants.filter fun p => p.status = o.audience

end Outreach

end Gathering
