import Gathering.Arrival.Estimate
import Gathering.Location.Tracking

/-!
# Who arrives when

Estimates for participants of an event from their latest locations: to any
place, or to the place where the event meets. An estimate can be sent to its
participant; nothing is sent unless the event, its place, the participant and a
location are all there.
-/

namespace Gathering.Forecast

/-- **When a participant arrives at a place.** -/
def ofParticipant (c : EtaConfig) (eventId participantId : String) (target : Coordinate) :
    Job Estimate := do
  Job.checked target.validate
  let sample ← Job.found "location" participantId (← Tracking.latest eventId participantId)
  return Estimate.ofSample sample target c.averageSpeedKmh

/-- **When several participants arrive at a place**; those without a location are left out. -/
def ofEach (c : EtaConfig) (eventId : String) (participantIds : List String) (target : Coordinate) :
    Job (List Estimate) := do
  Job.checked target.validate
  let samples ← Tracking.latestOfEach eventId participantIds
  return samples.map fun s => Estimate.ofSample s target c.averageSpeedKmh

/-- Where an event meets. -/
def meetingPoint (e : Event) (eventId : String) : Except Error Coordinate :=
  match e.location with
  | some place => .ok place
  | none => .error (.invalidInput ("event " ++ eventId ++ " has no location"))

/-- The participants of a list who will come. -/
def comers (participants : List Participant) : List Participant :=
  participants.filter fun p => p.status = .confirmed

/-- **When those who will come to an event arrive where it meets.** -/
def ofEvent (c : EtaConfig) (eventId : String) : Job (List Estimate) := do
  let event ← Job.found "event" eventId (← Job.roster (.getEvent eventId))
  let target ← Job.checked (meetingPoint event eventId)
  let participants ← Job.roster (.listParticipants eventId)
  ofEach c eventId ((comers participants).map (·.id)) target

/-- **Tells a participant when the arrival is expected**; the answer is the estimate. -/
def send (c : EtaConfig) (eventId participantId : String) : Job Estimate := do
  let event ← Job.found "event" eventId (← Job.roster (.getEvent eventId))
  let target ← Job.checked (meetingPoint event eventId)
  let someone ← Job.roster (.getParticipant participantId)
  let participant ←
    Job.found "participant" participantId (someone.filter fun p => p.eventId = eventId)
  let estimate ← ofParticipant c eventId participantId target
  Job.send (.eta event participant estimate.etaMinutes)
  return estimate

end Gathering.Forecast
