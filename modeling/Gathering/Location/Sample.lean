import Gathering.Coordinate
import Gathering.Text.Blank

/-!
# Location samples

A device reports where its participant is. A report that passes its checks
becomes a **sample**, which never changes. A report without a time of its own
gets the time at which it was received.

The checks are those of a sound report: identifiers that are not blank, a place
on the globe, an accuracy and a speed that are not negative, a heading on the
compass. The altitude may be any float.
-/

namespace Gathering

/-- **Where a participant was at an instant.** -/
structure Sample where
  /-- The participant. -/
  participantId : String
  /-- The event that the participant is on the way to. -/
  eventId : String
  /-- Degrees north of the equator. -/
  latitude : Float
  /-- Degrees east of the prime meridian. -/
  longitude : Float
  /-- How far the place may be off, in metres. -/
  accuracy : Option Float
  /-- Metres above the sea. -/
  altitude : Option Float
  /-- Metres per second. -/
  speed : Option Float
  /-- Degrees from north. -/
  heading : Option Float
  /-- When the participant was there. -/
  timestamp : Instant
  deriving DecidableEq

namespace Sample

instance : Inhabited Sample := ⟨⟨"", "", 0, 0, none, none, none, none, default⟩⟩

/-- The place of a sample. -/
def coordinate (s : Sample) : Coordinate := ⟨s.latitude, s.longitude⟩

/-- The names of the fields of a sample's record. -/
def fieldNames : List String :=
  ["participant_id", "event_id", "latitude", "longitude", "accuracy", "altitude", "speed",
    "heading", "timestamp"]

/-- The record of a sample. -/
def toJson (s : Sample) : Json.Value :=
  .object
    [ ("participant_id", .text s.participantId), ("event_id", .text s.eventId),
      ("latitude", .ofFloat s.latitude), ("longitude", .ofFloat s.longitude),
      ("accuracy", .ofOption .ofFloat s.accuracy), ("altitude", .ofOption .ofFloat s.altitude),
      ("speed", .ofOption .ofFloat s.speed), ("heading", .ofOption .ofFloat s.heading),
      ("timestamp", .ofInstant s.timestamp) ]

/-- The sample that a record holds. -/
def ofJson? (t : Json.Tree) : Option Sample := do
  let fields ← t.fields? fieldNames
  return { participantId := ← fields.required "participant_id" Json.Tree.text?
           eventId := ← fields.required "event_id" Json.Tree.text?
           latitude := ← fields.required "latitude" Json.Tree.float?
           longitude := ← fields.required "longitude" Json.Tree.float?
           accuracy := ← fields.optional "accuracy" Json.Tree.float?
           altitude := ← fields.optional "altitude" Json.Tree.float?
           speed := ← fields.optional "speed" Json.Tree.float?
           heading := ← fields.optional "heading" Json.Tree.float?
           timestamp := ← fields.required "timestamp" Json.Tree.instant? }

/-- The bytes of a sample as it is cached. -/
def toBytes (s : Sample) : ByteArray := s.toJson.toBytes

/-- The sample that cached bytes hold. -/
def ofBytes? (bytes : ByteArray) : Option Sample :=
  (Json.Tree.ofBytes? bytes).bind ofJson?

end Sample

/-- **What a device reports.** -/
structure Report where
  /-- The participant. -/
  participantId : String
  /-- The event that the participant is on the way to. -/
  eventId : String
  /-- Degrees north of the equator. -/
  latitude : Float
  /-- Degrees east of the prime meridian. -/
  longitude : Float
  /-- How far the place may be off, in metres. -/
  accuracy : Option Float
  /-- Metres above the sea. -/
  altitude : Option Float
  /-- Metres per second. -/
  speed : Option Float
  /-- Degrees from north. -/
  heading : Option Float
  /-- When the participant was there, by the device's clock. -/
  timestamp : Option Instant
  deriving DecidableEq

namespace Report

/-- Refuses a measure that is negative or no number; a missing one passes. -/
def checkMeasure (name : String) : Option Float → Except Error Unit
  | none => .ok ()
  | some x =>
    if x.isFinite && 0 ≤ x then .ok ()
    else .error (.invalidInput (name ++ " must be non-negative: " ++ Decimal.ofFloat x))

/-- Refuses a heading that is not on the compass; a missing one passes. -/
def checkHeading : Option Float → Except Error Unit
  | none => .ok ()
  | some x =>
    if within 0 360 x then .ok ()
    else .error (.invalidInput ("heading out of range: " ++ Decimal.ofFloat x))

/-- **Checks a report**: participant, event, place, accuracy, speed and heading, in this order. -/
def check (r : Report) : Except Error Unit := do
  if Text.isBlank r.participantId then throw (.invalidInput "participant_id is required")
  if Text.isBlank r.eventId then throw (.invalidInput "event_id is required")
  Coordinate.validate ⟨r.latitude, r.longitude⟩
  checkMeasure "accuracy" r.accuracy
  checkMeasure "speed" r.speed
  checkHeading r.heading

/-- **The sample of a report** that was received at an instant. -/
def toSample (r : Report) (receivedAt : Instant) : Except Error Sample := do
  r.check
  return { participantId := r.participantId
           eventId := r.eventId
           latitude := r.latitude
           longitude := r.longitude
           accuracy := r.accuracy
           altitude := r.altitude
           speed := r.speed
           heading := r.heading
           timestamp := r.timestamp.getD receivedAt }

/-- The record of a report; it has the fields of a sample. -/
def toJson (r : Report) : Json.Value :=
  .object
    [ ("participant_id", .text r.participantId), ("event_id", .text r.eventId),
      ("latitude", .ofFloat r.latitude), ("longitude", .ofFloat r.longitude),
      ("accuracy", .ofOption .ofFloat r.accuracy), ("altitude", .ofOption .ofFloat r.altitude),
      ("speed", .ofOption .ofFloat r.speed), ("heading", .ofOption .ofFloat r.heading),
      ("timestamp", .ofOption .ofInstant r.timestamp) ]

/-- The report that a record holds. -/
def ofJson? (t : Json.Tree) : Option Report := do
  let fields ← t.fields? Sample.fieldNames
  return { participantId := ← fields.required "participant_id" Json.Tree.text?
           eventId := ← fields.required "event_id" Json.Tree.text?
           latitude := ← fields.required "latitude" Json.Tree.float?
           longitude := ← fields.required "longitude" Json.Tree.float?
           accuracy := ← fields.optional "accuracy" Json.Tree.float?
           altitude := ← fields.optional "altitude" Json.Tree.float?
           speed := ← fields.optional "speed" Json.Tree.float?
           heading := ← fields.optional "heading" Json.Tree.float?
           timestamp := ← fields.optional "timestamp" Json.Tree.instant? }

end Report

end Gathering
