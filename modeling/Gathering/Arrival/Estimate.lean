import Gathering.Location.Sample

/-!
# Estimates of arrival

How long a participant still needs to a place: the great-circle distance over
the speed that the device has reported, or over an assumed average speed if it
has reported none that can be used. The time is in whole minutes, rounded up.
-/

namespace Gathering

/-- What speed an estimate rests on. -/
inductive EstimateMethod where
  /-- The speed that the device has reported. -/
  | velocity
  /-- An assumed average speed. -/
  | haversine
  deriving DecidableEq, Repr

namespace EstimateMethod

/-- The name of a method. -/
def name : EstimateMethod → String
  | velocity => "velocity"
  | haversine => "haversine"

/-- The method of a name. -/
def ofName? : String → Option EstimateMethod
  | "velocity" => some velocity
  | "haversine" => some haversine
  | _ => none

/-- The record of a method. -/
def toJson (m : EstimateMethod) : Json.Value := .text m.name

/-- The method that a record holds. -/
def ofJson? (t : Json.Tree) : Option EstimateMethod := t.choice?.bind ofName?

end EstimateMethod

/-- **When a participant is expected.** -/
structure Estimate where
  /-- The participant. -/
  participantId : String
  /-- How far away the participant is. -/
  distanceMeters : Float
  /-- How many minutes the participant still needs. -/
  etaMinutes : Int
  /-- What speed the estimate rests on. -/
  method : EstimateMethod
  /-- When the participant was at the place that the estimate starts from. -/
  lastUpdate : Instant
  deriving DecidableEq

namespace Estimate

/-! ## Distance -/

/-- The mean radius of the earth in metres. -/
def earthRadius : Float := 6371000.0

/-- One degree as an angle. -/
def radiansPerDegree : Float := 3.14159265358979323846264338327950288 / 180.0

/-- An angle in degrees as an angle. -/
def radians (degrees : Float) : Float := degrees * radiansPerDegree

/-- A number times itself. -/
def square (x : Float) : Float := x * x

/-- **The great-circle distance between two places**, in metres, by the haversine formula. -/
def distance (a b : Coordinate) : Float :=
  let latitudeA := radians a.latitude
  let latitudeB := radians b.latitude
  let dLatitude := radians (b.latitude - a.latitude)
  let dLongitude := radians (b.longitude - a.longitude)
  let h := square (dLatitude / 2.0).sin +
    latitudeA.cos * latitudeB.cos * square (dLongitude / 2.0).sin
  let angle := 2.0 * Float.atan2 h.sqrt (1.0 - h).sqrt
  earthRadius * angle

/-! ## Time -/

/-- The speed to reckon with, in metres per second, and what it rests on. A reported speed can be
used if it is finite and positive. -/
def speed (reported : Option Float) (averageKmh : Float) : Float × EstimateMethod :=
  let assumed := (averageKmh * 1000.0 / 3600.0, EstimateMethod.haversine)
  match reported with
  | some v => if v.isFinite && 0 < v then (v, .velocity) else assumed
  | none => assumed

/-- A float as a whole number of 64 bits: the nearest one to zero's side, the nearest bound if it
is too large, and zero if it is no number. -/
def wholeNumber (x : Float) : Int :=
  if x.isNaN then 0 else x.toInt64.toInt

/-- How many minutes a way takes, rounded up. -/
def minutes (meters metersPerSecond : Float) : Int :=
  wholeNumber (meters / metersPerSecond / 60.0).ceil

/-- **The estimate from one sample to a target.** -/
def ofSample (s : Sample) (target : Coordinate) (averageKmh : Float) : Estimate :=
  let meters := distance s.coordinate target
  let (metersPerSecond, method) := speed s.speed averageKmh
  { participantId := s.participantId
    distanceMeters := meters
    etaMinutes := minutes meters metersPerSecond
    method := method
    lastUpdate := s.timestamp }

/-! ## Record -/

/-- The names of the fields of an estimate's record. -/
def fieldNames : List String :=
  ["participant_id", "distance_meters", "eta_minutes", "method", "last_update"]

/-- The record of an estimate. -/
def toJson (e : Estimate) : Json.Value :=
  .object
    [ ("participant_id", .text e.participantId), ("distance_meters", .ofFloat e.distanceMeters),
      ("eta_minutes", .ofInt e.etaMinutes), ("method", e.method.toJson),
      ("last_update", .ofInstant e.lastUpdate) ]

/-- The estimate that a record holds. -/
def ofJson? (t : Json.Tree) : Option Estimate := do
  let fields ← t.fields? fieldNames
  return { participantId := ← fields.required "participant_id" Json.Tree.text?
           distanceMeters := ← fields.required "distance_meters" Json.Tree.float?
           etaMinutes := ← fields.required "eta_minutes"
             (Json.Tree.int? (-(1 <<< 63)) ((1 <<< 63) - 1))
           method := ← fields.required "method" EstimateMethod.ofJson?
           lastUpdate := ← fields.required "last_update" Json.Tree.instant? }

end Estimate

end Gathering
