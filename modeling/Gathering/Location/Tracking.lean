import Gathering.Cache.Key
import Gathering.Request

/-!
# Tracking locations

A report is appended to the history first, and then the latest location of the
pair of event and participant is refreshed in the cache. The history is what
counts: the cache makes reading faster, and a cache that fails, lacks an entry or
holds one that cannot be read only means that the history is asked.

A cached location lives until the event ends, so that nobody has to remove it.
-/

namespace Gathering.Tracking

/-- Until when what is cached about an event lives: to its end, and for a default time if the end is
unknown or cannot be looked up. -/
def lifetimeEnd (c : LocationConfig) (eventId : String) (now : Instant) : Work Instant := do
  let fallback := now.add c.defaultTtl
  match ← (Job.roster (.getEvent eventId)).run with
  | .ok (some event) => return event.endsAt.getD fallback
  | .ok none => return fallback
  | .error _ => return fallback

/-- The cached location of a participant of an event, if the cache answers and holds one that can be
read. -/
def cached? (key : String) : Work (Option Sample) := do
  match ← (Job.cache (.get key)).run with
  | .ok (some bytes) => return Sample.ofBytes? bytes
  | .ok none => return none
  | .error _ => return none

/-- Whether a cached sample is newer than a sample. -/
def isNewer (cached : Option Sample) (s : Sample) : Bool :=
  match cached with
  | some c => s.timestamp < c.timestamp
  | none => false

/-- **Caches a location** until an instant. Nothing is written once that instant has passed, or over
a newer location. -/
def cacheLatest (s : Sample) (until_ : Instant) : Job Unit := do
  let some ttl := until_.remaining (← Job.now) | return
  let key := Cache.Key.location s.eventId s.participantId
  if isNewer (← ExceptT.lift (cached? key)) s then return
  Job.cache (.set key s.toBytes (some ttl))

/-- **Takes in a report**: checks it, appends its sample to the history and refreshes the cache. The
sample is kept whatever becomes of the cache. -/
def record (c : LocationConfig) (r : Report) : Job Sample := do
  let now ← Job.now
  let sample ← Job.checked (r.toSample now)
  Job.trail (.append sample)
  let until_ ← ExceptT.lift (lifetimeEnd c sample.eventId now)
  let _ ← ExceptT.lift (cacheLatest sample until_).run
  return sample

/-- **The latest location of a participant of an event**, from the cache if it has one. -/
def latest (eventId participantId : String) : Job (Option Sample) := do
  match ← ExceptT.lift (cached? (Cache.Key.location eventId participantId)) with
  | some sample => return some sample
  | none => Job.trail (.latest eventId participantId)

/-- The locations of participants, each from its cached bytes or the history; those without one are
left out. -/
def fillIn (eventId : String) : List (String × Option ByteArray) → Job (List Sample)
  | [] => return []
  | (participantId, bytes) :: rest => do
    let sample ← match bytes.bind Sample.ofBytes? with
      | some sample => pure (some sample)
      | none => Job.trail (.latest eventId participantId)
    let samples ← fillIn eventId rest
    return sample.toList ++ samples

/-- **The latest locations of several participants of an event**, in the order in which they are
asked for. -/
def latestOfEach (eventId : String) (participantIds : List String) : Job (List Sample) := do
  let keys := participantIds.map (Cache.Key.location eventId)
  let cached ← match ← ExceptT.lift (Job.cache (.getMany keys)).run with
    | .ok values => pure values
    | .error _ => pure (participantIds.map fun _ => none)
  fillIn eventId (participantIds.zip cached)

/-- The locations of a participant in an interval, from the history. -/
def history (participantId : String) (start stop : Instant) : Job (List Sample) :=
  Job.trail (.history participantId start stop)

/-- The latest location of a participant over all events, from the history. -/
def latestOfParticipant (participantId : String) : Job (Option Sample) :=
  Job.trail (.latestOfParticipant participantId)

end Gathering.Tracking
