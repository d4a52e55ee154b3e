import Gathering.Snapshot.Cached

/-!
# Recording replies

What a participant replies is stored first and then copied to the cache. A
reply to an event or organisation that the participant does not belong to is
refused, and a failure before the reply is stored leaves everything as it was. A
cache that fails afterwards does not matter.
-/

namespace Gathering.Rsvp

/-- **Records what a participant replies**; the answer is the entry for the cache. -/
def record (c : EventCacheConfig) (orgId eventId participantId : String) (status : Rsvp) :
    Job Confirmation := do
  let someone ← Job.roster (.getParticipant participantId)
  let participant ← Job.found "participant" participantId
    (someone.filter fun p => p.eventId = eventId && p.orgId = orgId)
  let event ← Job.roster (.getEvent eventId)
  Job.roster (.updateParticipantStatus participant.id status)
  let entry : Confirmation := { orgId, eventId, participantId, status, updatedAt := ← Job.now }
  let _ ← ExceptT.lift (Confirmation.cache c entry (event.bind (·.endsAt))).run
  return entry

/-- Removes a reply from the cache; says whether it was there. -/
def remove (orgId eventId participantId : String) : Job Bool :=
  Confirmation.uncache orgId eventId participantId

end Gathering.Rsvp
