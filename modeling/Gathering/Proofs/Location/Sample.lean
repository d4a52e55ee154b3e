import Gathering.Location.Sample
import Gathering.Proofs.Json.Record
import Gathering.Proofs.Program.Protocol

/-!
# Accepted reports, and reading back samples

A sample is taken over from a report that has passed its checks
(`Report.toSample_eq_ok`), so it names its participant and its event
(`Report.isBlank_of_check`), and all that the checks look at is sound
(`Sample.IsSound`).

The bytes of a sample are read as the sample itself, but for its floats
(`Sample.ofBytes?_toBytes`). Each float is read as the float that its text stands
for, and if one of them cannot be read, then neither can the sample. Whose sample
it is and when it was taken never changes (`Sample.eq_of_ofBytes?`).
-/

namespace Gathering

namespace Report

variable {r : Report}

/-- **How a report is checked**: first its names, and then its numbers. -/
theorem check_eq (r : Report) : r.check =
    if Text.isBlank r.participantId = true then .error (.invalidInput "participant_id is required")
    else if Text.isBlank r.eventId = true then .error (.invalidInput "event_id is required")
    else (do
      Coordinate.validate ⟨r.latitude, r.longitude⟩
      checkMeasure "accuracy" r.accuracy
      checkMeasure "speed" r.speed
      checkHeading r.heading : Except Error Unit) := by
  unfold check
  cases Text.isBlank r.participantId <;> cases Text.isBlank r.eventId <;> rfl

theorem isBlank_of_check (h : r.check = .ok ()) :
    Text.isBlank r.eventId = false ∧ Text.isBlank r.participantId = false := by
  rw [check_eq] at h
  split at h
  · cases h
  · next hparticipant =>
    split at h
    · cases h
    · next hevent => exact ⟨Bool.eq_false_iff.mpr hevent, Bool.eq_false_iff.mpr hparticipant⟩

/-- **A report that gives a sample** is sound, and the sample is about those whom it names. -/
theorem toSample_eq_ok {now : Instant} {s : Sample} (h : r.toSample now = .ok s) :
    r.check = .ok () ∧ s.eventId = r.eventId ∧ s.participantId = r.participantId := by
  unfold toSample at h
  cases hcheck : r.check with
  | error e =>
    rw [hcheck] at h
    cases h
  | ok u =>
    rw [hcheck] at h
    cases h
    exact ⟨rfl, rfl, rfl⟩

/-- **A report that gives no sample** is not sound, and the error says why. -/
theorem toSample_eq_error_iff {now : Instant} {e : Error} :
    r.toSample now = .error e ↔ r.check = .error e := by
  unfold toSample
  cases r.check with
  | error e' => exact ⟨fun h => by cases h; rfl, fun h => by cases h; rfl⟩
  | ok u => exact iff_of_false (fun h => by cases h) (fun h => by cases h)

theorem of_checkMeasure {name : String} {measure : Option Float}
    (h : checkMeasure name measure = .ok ()) : ∀ x ∈ measure, x.isFinite = true ∧ 0 ≤ x := by
  rintro x rfl
  unfold checkMeasure at h
  dsimp only at h
  split at h
  · next hsound => simpa using hsound
  · cases h

theorem of_checkHeading {heading : Option Float} (h : checkHeading heading = .ok ()) :
    ∀ x ∈ heading, within 0 360 x = true := by
  rintro x rfl
  unfold checkHeading at h
  dsimp only at h
  split at h
  · assumption
  · cases h

end Report

/-- **A coordinate that passes names a place.** -/
theorem Coordinate.within_of_validate {c : Coordinate} (h : c.validate = .ok ()) :
    within (-90) 90 c.latitude = true ∧ within (-180) 180 c.longitude = true := by
  unfold validate at h
  split at h
  · cases h
  · next hlatitude =>
    split at h
    · cases h
    · next hlongitude => exact ⟨by simpa using hlatitude, by simpa using hlongitude⟩

/-- **A sound sample**: its names are not blank, it is about a place on the globe, and its measures
are numbers that make sense. The altitude may be anything. -/
structure Sample.IsSound (s : Sample) : Prop where
  /-- It names its participant. -/
  participantId : Text.isBlank s.participantId = false
  /-- It names its event. -/
  eventId : Text.isBlank s.eventId = false
  /-- The latitude is one. -/
  latitude : -90 ≤ s.latitude ∧ s.latitude ≤ 90
  /-- The longitude is one. -/
  longitude : -180 ≤ s.longitude ∧ s.longitude ≤ 180
  /-- The accuracy is a number, and not negative. -/
  accuracy : ∀ x ∈ s.accuracy, x.isFinite = true ∧ 0 ≤ x
  /-- The speed is a number, and not negative. -/
  speed : ∀ x ∈ s.speed, x.isFinite = true ∧ 0 ≤ x
  /-- The heading is on the compass. -/
  heading : ∀ x ∈ s.heading, 0 ≤ x ∧ x ≤ 360

theorem within_iff {low high x : Float} : within low high x = true ↔ low ≤ x ∧ x ≤ high := by
  unfold within
  simp

namespace Report

variable {r : Report}

/-- **The sample of a report is sound.** -/
theorem isSound_of_toSample {now : Instant} {s : Sample} (h : r.toSample now = .ok s) :
    s.IsSound := by
  unfold toSample at h
  obtain ⟨_, hcheck, hsample⟩ := exists_of_bind_eq_ok h
  cases hsample
  obtain ⟨hevent, hparticipant⟩ := isBlank_of_check hcheck
  rw [check_eq, if_neg (Bool.eq_false_iff.mp hparticipant), if_neg (Bool.eq_false_iff.mp hevent)]
    at hcheck
  obtain ⟨_, hplace, hcheck⟩ := exists_of_bind_eq_ok hcheck
  obtain ⟨_, haccuracy, hcheck⟩ := exists_of_bind_eq_ok hcheck
  obtain ⟨_, hspeed, hheading⟩ := exists_of_bind_eq_ok hcheck
  obtain ⟨hlatitude, hlongitude⟩ := Coordinate.within_of_validate hplace
  exact ⟨hparticipant, hevent, within_iff.mp hlatitude, within_iff.mp hlongitude,
    of_checkMeasure haccuracy, of_checkMeasure hspeed,
    fun x hx => within_iff.mp (of_checkHeading hheading x hx)⟩

/-- A report of a place and nothing else. -/
def ofPlace (eventId participantId : String) (timestamp : Option Instant) : Report :=
  ⟨participantId, eventId, 0, 0, none, none, none, none, timestamp⟩

end Report

namespace Sample

/-- A sample of a place and nothing else. -/
def ofPlace (eventId participantId : String) (timestamp : Instant) : Sample :=
  ⟨participantId, eventId, 0, 0, none, none, none, none, timestamp⟩

end Sample

/-- **A place of somebody is accepted.** -/
theorem Report.toSample_ofPlace {eventId participantId : String}
    (he : Text.isBlank eventId = false) (hp : Text.isBlank participantId = false)
    (timestamp : Option Instant) (now : Instant) :
    (ofPlace eventId participantId timestamp).toSample now =
      .ok (.ofPlace eventId participantId (timestamp.getD now)) := by
  have hcheck : (ofPlace eventId participantId timestamp).check = .ok () := by
    unfold check ofPlace
    simp only [he, hp]
    rfl
  unfold toSample
  rw [hcheck]
  rfl

namespace Sample

open Json (rereadOptional?)

/-- **The sample that the bytes of a sample are read as**: the same one, but for the floats. -/
def reread? (s : Sample) : Option Sample := do
  return { participantId := s.participantId
           eventId := s.eventId
           latitude := ← Json.reread? s.latitude
           longitude := ← Json.reread? s.longitude
           accuracy := ← rereadOptional? s.accuracy
           altitude := ← rereadOptional? s.altitude
           speed := ← rereadOptional? s.speed
           heading := ← rereadOptional? s.heading
           timestamp := s.timestamp }

/-- **The bytes of a sample are read as the sample**, but for the floats.

The record is read field by field, and each of its fields is read from what was written for it; so
it can be read just if each of the floats can. -/
theorem ofBytes?_toBytes (s : Sample) : ofBytes? s.toBytes = s.reread? := by
  unfold ofBytes? toBytes
  rw [Json.Tree.ofBytes?_toBytes, Option.bind_some]
  refine (@Json.read_object _ fieldNames _ rfl (by decide) _).trans ?_
  simp only [List.map, Json.required_cons, Json.optional_cons, String.reduceEq, if_true, if_false,
    Json.text?_tree, Json.instant?_tree]
  rfl

/-- **Whose sample it is and when it was taken** is read as it was written. -/
theorem eq_of_ofBytes? {s s' : Sample} (h : ofBytes? s.toBytes = some s') :
    s'.eventId = s.eventId ∧ s'.participantId = s.participantId ∧ s'.timestamp = s.timestamp := by
  rw [ofBytes?_toBytes] at h
  unfold reread? at h
  simp only [Option.bind_eq_bind, Option.bind_eq_some_iff] at h
  obtain ⟨_, _, _, _, _, _, _, _, _, _, _, _, h⟩ := h
  cases h
  exact ⟨rfl, rfl, rfl⟩

theorem reread?_ofPlace (eventId participantId : String) (timestamp : Instant) :
    (ofPlace eventId participantId timestamp).reread? =
      some (ofPlace eventId participantId timestamp) := by
  have hfloat : Json.reread? 0 = some 0 := by decide +kernel
  unfold reread? ofPlace
  simp only [hfloat]
  rfl

end Sample

end Gathering
