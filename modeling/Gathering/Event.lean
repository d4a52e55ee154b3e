import Gathering.Coordinate

/-!
# Events

An event is a gathering of an organisation: it has a time, perhaps a place, and
a status. Its end bounds the lifetime of everything that is cached about it.
-/

namespace Gathering

/-- Where an event stands. -/
inductive EventStatus where
  /-- Announced. -/
  | scheduled
  /-- Under way. -/
  | active
  /-- Over. -/
  | completed
  /-- Called off. -/
  | cancelled
  deriving DecidableEq, Repr

namespace EventStatus

/-- The name of a status. -/
def name : EventStatus → String
  | scheduled => "scheduled"
  | active => "active"
  | completed => "completed"
  | cancelled => "cancelled"

/-- The status of a name. -/
def ofName? : String → Option EventStatus
  | "scheduled" => some scheduled
  | "active" => some active
  | "completed" => some completed
  | "cancelled" => some cancelled
  | _ => none

/-- The record of a status. -/
def toJson (s : EventStatus) : Json.Value := .text s.name

/-- The status that a record holds. -/
def ofJson? (t : Json.Tree) : Option EventStatus := t.choice?.bind ofName?

/-- Whether an event with this status takes place no more. -/
def isOver : EventStatus → Bool
  | completed | cancelled => true
  | scheduled | active => false

end EventStatus

/-- **A gathering.** -/
structure Event where
  /-- The identifier. -/
  id : String
  /-- The organisation that holds it. -/
  orgId : String
  /-- What it is called. -/
  name : String
  /-- Where it stands. -/
  status : EventStatus
  /-- When it begins. -/
  startsAt : Instant
  /-- When it ends, if that is known. -/
  endsAt : Option Instant
  /-- Where its participants meet, if that is known. -/
  location : Option Coordinate
  deriving DecidableEq

namespace Event

/-- The names of the fields of an event's record. -/
def fieldNames : List String :=
  ["id", "org_id", "name", "status", "starts_at", "ends_at", "location"]

/-- The record of an event. -/
def toJson (e : Event) : Json.Value :=
  .object
    [ ("id", .text e.id), ("org_id", .text e.orgId), ("name", .text e.name),
      ("status", e.status.toJson), ("starts_at", .ofInstant e.startsAt),
      ("ends_at", .ofOption .ofInstant e.endsAt),
      ("location", .ofOption Coordinate.toJson e.location) ]

/-- The event that a record holds. -/
def ofJson? (t : Json.Tree) : Option Event := do
  let fields ← t.fields? fieldNames
  return { id := ← fields.required "id" Json.Tree.text?
           orgId := ← fields.required "org_id" Json.Tree.text?
           name := ← fields.required "name" Json.Tree.text?
           status := ← fields.required "status" EventStatus.ofJson?
           startsAt := ← fields.required "starts_at" Json.Tree.instant?
           endsAt := ← fields.optional "ends_at" Json.Tree.instant?
           location := ← fields.optional "location" Coordinate.ofJson? }

end Event

end Gathering
