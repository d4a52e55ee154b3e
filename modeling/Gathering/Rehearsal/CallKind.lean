import Gathering.Request

/-!
# Kinds of calls

A rehearsal can make calls fail or take time. It names the calls by kind, and
sends by the recipient.
-/

namespace Gathering.Rehearsal

/-- **A kind of call**, or the sends to one recipient. -/
inductive CallKind where
  /-- Asking whether the cache is there. -/
  | cachePing
  /-- Reading a key of the cache. -/
  | cacheGet
  /-- Writing a key of the cache. -/
  | cacheSet
  /-- Reading several keys of the cache. -/
  | cacheGetMany
  /-- Listing keys of the cache. -/
  | cacheScan
  /-- Removing a key of the cache. -/
  | cacheDelete
  /-- Giving a key of the cache a new deadline. -/
  | cacheExpire
  /-- Adding a task. -/
  | taskInsert
  /-- Reading a task. -/
  | taskGet
  /-- Listing the tasks of an event. -/
  | taskListByEvent
  /-- Listing the tasks that are due. -/
  | taskListDue
  /-- Claiming a task. -/
  | taskClaim
  /-- Extending a lease. -/
  | taskExtendLease
  /-- Settling a task as processed. -/
  | taskMarkProcessed
  /-- Recording a failed attempt. -/
  | taskIncrementRetries
  /-- Settling a task as failed. -/
  | taskMarkFailed
  /-- Cancelling a task. -/
  | taskMarkSkipped
  /-- Reading an event. -/
  | eventGet
  /-- Listing the participants of an event. -/
  | participantList
  /-- Reading a participant. -/
  | participantGet
  /-- Setting the status of an event. -/
  | eventSetStatus
  /-- Setting what a participant has replied. -/
  | participantSetStatus
  /-- Adding a location. -/
  | trailAppend
  /-- Reading the latest location of a participant of an event. -/
  | trailLatest
  /-- Reading the latest location of a participant. -/
  | trailLatestOfParticipant
  /-- Reading the locations of a participant. -/
  | trailHistory
  /-- Sending to a participant, by identifier, or to a contact. -/
  | send (recipient : String)
  deriving DecidableEq

namespace CallKind

/-- The kind of a call of the cache. -/
def ofCache : Cache.Call → CallKind
  | .ping => cachePing
  | .get _ => cacheGet
  | .set _ _ _ => cacheSet
  | .getMany _ => cacheGetMany
  | .scan _ _ => cacheScan
  | .delete _ => cacheDelete
  | .expire _ _ => cacheExpire

/-- The kind of a call of the store of tasks. -/
def ofTasks : TaskStore.Call → CallKind
  | .insert _ => taskInsert
  | .get _ => taskGet
  | .listByEvent _ => taskListByEvent
  | .listDue _ _ => taskListDue
  | .claim _ _ _ _ => taskClaim
  | .extendLease _ _ _ => taskExtendLease
  | .markProcessed _ _ _ => taskMarkProcessed
  | .incrementRetries _ _ _ => taskIncrementRetries
  | .markFailed _ _ _ _ => taskMarkFailed
  | .markSkipped _ _ => taskMarkSkipped

/-- The kind of a call of the store of events and participants. -/
def ofRoster : Roster.Call → CallKind
  | .getEvent _ => eventGet
  | .listParticipants _ => participantList
  | .getParticipant _ => participantGet
  | .updateEventStatus _ _ => eventSetStatus
  | .updateParticipantStatus _ _ => participantSetStatus

/-- The kind of a call of the history of locations. -/
def ofTrail : Trail.Call → CallKind
  | .append _ => trailAppend
  | .latest _ _ => trailLatest
  | .latestOfParticipant _ => trailLatestOfParticipant
  | .history _ _ _ => trailHistory

/-- The sends to the recipient of a message. -/
def ofMessage : Message → CallKind
  | .outreach _ _ participant => send participant.id
  | .eta _ participant _ => send participant.id
  | .text contact _ => send contact

/-- The kind of a request, if it is a call. -/
def ofRequest? : Request → Option CallKind
  | .now | .freshId | .isCancelled => none
  | .tasks call => some (ofTasks call)
  | .roster call => some (ofRoster call)
  | .trail call => some (ofTrail call)
  | .cache call => some (ofCache call)
  | .send m => some (ofMessage m)

end CallKind

end Gathering.Rehearsal
