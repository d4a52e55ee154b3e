import Gathering.Json.Reading
import Gathering.Json.Writing

/-!
# Participants

Someone who is invited to an event. The reply decides which messages a
participant gets.
-/

namespace Gathering

/-- **What a participant has replied.** -/
inductive Rsvp where
  /-- Nothing yet. -/
  | pending
  /-- Will come. -/
  | confirmed
  /-- Will not come. -/
  | denied
  /-- Has arrived. -/
  | checkedIn
  deriving DecidableEq, Repr

namespace Rsvp

/-- The name of a reply. -/
def name : Rsvp → String
  | pending => "pending"
  | confirmed => "confirmed"
  | denied => "denied"
  | checkedIn => "checked_in"

/-- The reply of a name. -/
def ofName? : String → Option Rsvp
  | "pending" => some pending
  | "confirmed" => some confirmed
  | "denied" => some denied
  | "checked_in" => some checkedIn
  | _ => none

/-- The record of a reply. -/
def toJson (r : Rsvp) : Json.Value := .text r.name

/-- The reply that a record holds. -/
def ofJson? (t : Json.Tree) : Option Rsvp := t.choice?.bind ofName?

end Rsvp

/-- **Someone who is invited to an event.** -/
structure Participant where
  /-- The identifier. -/
  id : String
  /-- The event. -/
  eventId : String
  /-- The organisation that holds the event. -/
  orgId : String
  /-- The participant's name. -/
  name : String
  /-- Where messages to the participant go. -/
  contact : String
  /-- What the participant has replied. -/
  status : Rsvp
  deriving DecidableEq, Repr

namespace Participant

/-- The names of the fields of a participant's record. -/
def fieldNames : List String :=
  ["id", "event_id", "org_id", "name", "contact", "status"]

/-- The record of a participant. -/
def toJson (p : Participant) : Json.Value :=
  .object
    [ ("id", .text p.id), ("event_id", .text p.eventId), ("org_id", .text p.orgId),
      ("name", .text p.name), ("contact", .text p.contact), ("status", p.status.toJson) ]

/-- The participant that a record holds. -/
def ofJson? (t : Json.Tree) : Option Participant := do
  let fields ← t.fields? fieldNames
  return { id := ← fields.required "id" Json.Tree.text?
           eventId := ← fields.required "event_id" Json.Tree.text?
           orgId := ← fields.required "org_id" Json.Tree.text?
           name := ← fields.required "name" Json.Tree.text?
           contact := ← fields.required "contact" Json.Tree.text?
           status := ← fields.required "status" Rsvp.ofJson? }

end Participant

end Gathering
