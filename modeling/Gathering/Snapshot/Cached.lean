import Gathering.Cache.Key
import Gathering.Request
import Gathering.Snapshot.Basic

/-!
# Replies and snapshots in the cache

Replies are cached beside the latest locations, and a snapshot puts both together
for one event. A snapshot is made from what the cache gives: a cache that fails
gives an empty part, and an entry that cannot be read is counted and left out.
-/

namespace Gathering

namespace Confirmation

/-- **Caches a reply** until an instant, or for a default time. Nothing is written once the instant
has passed. -/
def cache (c : EventCacheConfig) (entry : Confirmation) (until_ : Option Instant) : Job Unit := do
  let now ← Job.now
  let some ttl := (until_.getD (now.add c.defaultTtl)).remaining now | return
  let key := Cache.Key.confirmation entry.orgId entry.eventId entry.participantId
  Job.cache (.set key entry.toBytes (some ttl))

/-- Removes a cached reply; says whether it was there. -/
def uncache (orgId eventId participantId : String) : Job Bool :=
  Job.cache (.delete (Cache.Key.confirmation orgId eventId participantId))

end Confirmation

namespace Snapshot

/-- What a part of the cache holds. -/
structure Part (α : Type) where
  /-- The entries that could be read, by key. -/
  items : List α := []
  /-- How many entries could not be read. -/
  skipped : Nat := 0

/-- Reads the values that are there. -/
def readAll {α : Type} (read : ByteArray → Option α) (values : List (Option ByteArray)) : Part α :=
  let results := (values.filterMap id).map read
  { items := results.filterMap id, skipped := results.countP (·.isNone) }

/-- The entries whose keys begin with a text; none if the cache fails. -/
def part {α : Type} (c : EventCacheConfig) (read : ByteArray → Option α) (start : String) :
    Work (Part α) := do
  match ← (Job.cache (.scan start c.scanCount)).run with
  | .error _ => return {}
  | .ok [] => return {}
  | .ok keys =>
    match ← (Job.cache (.getMany keys)).run with
    | .error _ => return {}
    | .ok values => return readAll read ((keys.zip values).map (·.2))

/-- **What the cache knows about an event of an organisation.** -/
def take (c : EventCacheConfig) (orgId eventId : String) : Work Snapshot := do
  let locations ← part c Sample.ofBytes? (Cache.Key.locationsOf eventId)
  let confirmations ← part c Confirmation.ofBytes? (Cache.Key.confirmationsOf orgId eventId)
  let now ← Work.now
  return { eventId, orgId
           locations := locations.items
           confirmations := confirmations.items
           totals := Tally.ofReplies (confirmations.items.map (·.status))
           skippedEntries := locations.skipped + confirmations.skipped
           fetchedAt := now }

end Snapshot

end Gathering
