import Gathering.Location.Sample
import Gathering.Participant

/-!
# Event snapshots

What the cache knows about an event at a glance: where its participants are,
what they have replied, and how many there are of each. A cached entry that
cannot be read is counted and left out.

Of the replies, *has arrived* counts as *will come*.
-/

namespace Gathering

/-- **A cached reply** of a participant. -/
structure Confirmation where
  /-- The organisation that holds the event. -/
  orgId : String
  /-- The event. -/
  eventId : String
  /-- The participant. -/
  participantId : String
  /-- What the participant has replied. -/
  status : Rsvp
  /-- When the reply was recorded. -/
  updatedAt : Instant
  deriving DecidableEq

namespace Confirmation

/-- The names of the fields of a cached reply. -/
def fieldNames : List String :=
  ["org_id", "event_id", "participant_id", "status", "updated_at"]

/-- The record of a cached reply. -/
def toJson (c : Confirmation) : Json.Value :=
  .object
    [ ("org_id", .text c.orgId), ("event_id", .text c.eventId),
      ("participant_id", .text c.participantId), ("status", c.status.toJson),
      ("updated_at", .ofInstant c.updatedAt) ]

/-- The cached reply that a record holds. -/
def ofJson? (t : Json.Tree) : Option Confirmation := do
  let fields ← t.fields? fieldNames
  return { orgId := ← fields.required "org_id" Json.Tree.text?
           eventId := ← fields.required "event_id" Json.Tree.text?
           participantId := ← fields.required "participant_id" Json.Tree.text?
           status := ← fields.required "status" Rsvp.ofJson?
           updatedAt := ← fields.required "updated_at" Json.Tree.instant? }

/-- The bytes of a reply as it is cached. -/
def toBytes (c : Confirmation) : ByteArray := c.toJson.toBytes

/-- The reply that cached bytes hold. -/
def ofBytes? (bytes : ByteArray) : Option Confirmation :=
  (Json.Tree.ofBytes? bytes).bind ofJson?

end Confirmation

/-- **How many participants have replied what.** -/
structure Tally where
  /-- Those who will come or have arrived. -/
  confirmed : Nat := 0
  /-- Those who have not replied. -/
  pending : Nat := 0
  /-- Those who will not come. -/
  denied : Nat := 0
  /-- All of them. -/
  total : Nat := 0
  deriving DecidableEq, Repr

namespace Tally

/-- Counts one more reply. -/
def count (t : Tally) : Rsvp → Tally
  | .confirmed | .checkedIn => { t with confirmed := t.confirmed + 1, total := t.total + 1 }
  | .pending => { t with pending := t.pending + 1, total := t.total + 1 }
  | .denied => { t with denied := t.denied + 1, total := t.total + 1 }

/-- The tally of a list of replies. -/
def ofReplies (replies : List Rsvp) : Tally :=
  replies.foldl count {}

/-- The names of the fields of a tally's record. -/
def fieldNames : List String :=
  ["confirmed", "pending", "denied", "total"]

/-- The record of a tally. -/
def toJson (t : Tally) : Json.Value :=
  .object
    [ ("confirmed", .ofNat t.confirmed), ("pending", .ofNat t.pending),
      ("denied", .ofNat t.denied), ("total", .ofNat t.total) ]

/-- The tally that a record holds. -/
def ofJson? (t : Json.Tree) : Option Tally := do
  let fields ← t.fields? fieldNames
  return { confirmed := ← fields.required "confirmed" (Json.Tree.nat? Json.wordBound)
           pending := ← fields.required "pending" (Json.Tree.nat? Json.wordBound)
           denied := ← fields.required "denied" (Json.Tree.nat? Json.wordBound)
           total := ← fields.required "total" (Json.Tree.nat? Json.wordBound) }

end Tally

/-- **What the cache knows about an event.** -/
structure Snapshot where
  /-- The event. -/
  eventId : String
  /-- The organisation that holds it. -/
  orgId : String
  /-- Where its participants are. -/
  locations : List Sample
  /-- What its participants have replied. -/
  confirmations : List Confirmation
  /-- How many have replied what. -/
  totals : Tally
  /-- How many cached entries could not be read. -/
  skippedEntries : Nat
  /-- When the snapshot was taken. -/
  fetchedAt : Instant
  deriving DecidableEq

namespace Snapshot

/-- The names of the fields of a snapshot's record. -/
def fieldNames : List String :=
  ["event_id", "org_id", "locations", "confirmations", "totals", "skipped_entries", "fetched_at"]

/-- The record of a snapshot. -/
def toJson (s : Snapshot) : Json.Value :=
  .object
    [ ("event_id", .text s.eventId), ("org_id", .text s.orgId),
      ("locations", .array (s.locations.map Sample.toJson)),
      ("confirmations", .array (s.confirmations.map Confirmation.toJson)),
      ("totals", s.totals.toJson), ("skipped_entries", .ofNat s.skippedEntries),
      ("fetched_at", .ofInstant s.fetchedAt) ]

/-- The snapshot that a record holds. -/
def ofJson? (t : Json.Tree) : Option Snapshot := do
  let fields ← t.fields? fieldNames
  return { eventId := ← fields.required "event_id" Json.Tree.text?
           orgId := ← fields.required "org_id" Json.Tree.text?
           locations := ← fields.required "locations" (Json.Tree.list? Sample.ofJson?)
           confirmations := ← fields.required "confirmations" (Json.Tree.list? Confirmation.ofJson?)
           totals := ← fields.required "totals" Tally.ofJson?
           skippedEntries := ← fields.required "skipped_entries" (Json.Tree.nat? Json.wordBound)
           fetchedAt := ← fields.required "fetched_at" Json.Tree.instant? }

end Snapshot

end Gathering
