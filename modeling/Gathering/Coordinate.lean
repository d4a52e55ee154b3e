import Gathering.Decimal.Layout
import Gathering.Error
import Gathering.Json.Reading
import Gathering.Json.Writing

/-!
# Coordinates

A place on the globe in degrees. A coordinate that was read from a record may
hold any float; `validate` says which ones name a place.
-/

namespace Gathering

/-- Whether a float lies between two bounds, both included; not-a-number lies nowhere. -/
def within (low high x : Float) : Bool :=
  low ≤ x && x ≤ high

/-- A place in degrees of latitude and longitude. -/
structure Coordinate where
  /-- Degrees north of the equator. -/
  latitude : Float
  /-- Degrees east of the prime meridian. -/
  longitude : Float
  deriving DecidableEq

namespace Coordinate

/-- **Refuses a coordinate that names no place**, the latitude first. -/
def validate (c : Coordinate) : Except Error Unit :=
  if !within (-90) 90 c.latitude then
    .error (.invalidInput ("latitude out of range: " ++ Decimal.ofFloat c.latitude))
  else if !within (-180) 180 c.longitude then
    .error (.invalidInput ("longitude out of range: " ++ Decimal.ofFloat c.longitude))
  else .ok ()

/-- The coordinate of two angles, if it names a place. -/
def make (latitude longitude : Float) : Except Error Coordinate := do
  let c : Coordinate := ⟨latitude, longitude⟩
  c.validate
  return c

/-- The record of a coordinate. -/
def toJson (c : Coordinate) : Json.Value :=
  .object [("latitude", .ofFloat c.latitude), ("longitude", .ofFloat c.longitude)]

/-- The coordinate that a record holds. -/
def ofJson? (t : Json.Tree) : Option Coordinate := do
  let fields ← t.fields? ["latitude", "longitude"]
  return { latitude := ← fields.required "latitude" Json.Tree.float?
           longitude := ← fields.required "longitude" Json.Tree.float? }

end Coordinate

end Gathering
