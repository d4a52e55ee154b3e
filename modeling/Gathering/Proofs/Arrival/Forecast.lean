import Gathering.Arrival.Forecast
import Gathering.Proofs.Location.Batch
import Gathering.Proofs.Location.Sample

/-!
# Estimates, one by one and at once

The estimates for several participants rest on locations that are read at once, and
the estimate for one participant rests on a location that is read alone. While the
stores stand still, nobody can tell the difference: whatever the cache holds, and
even if it is down, what is found for several participants is what is found for each
of them, in the order in which they are asked for (`Forecast.batch_agrees`). Those
who are left out are those whose location is not found.

What is found for one participant has three sources: the location, the target and
the speed. The last two are the same for everybody, so that the question comes down
to the locations.
-/

namespace Gathering

open Stores (Yields)

variable {down : Bool} {st : Stores}

/-- The estimate that is found for a participant. -/
def Stores.expected? (st : Stores) (down : Bool) (c : EtaConfig) (eventId : String)
    (target : Coordinate) (participantId : String) : Option Estimate :=
  (st.located? down eventId participantId).map fun s =>
    Estimate.ofSample s target c.averageSpeedKmh

namespace Forecast

variable {target : Coordinate} {e : String}

/-- **The estimate for one participant.** -/
theorem ofParticipant_yields (c : EtaConfig) (h : target.validate = .ok ()) (p : String) :
    st.Yields down (ofParticipant c e p target).run
      ((st.expected? down c e target p).elim (.error (.notFound "location" p)) .ok) := by
  have hchecked : st.Yields down (Job.checked target.validate).run (.ok ()) := by
    rw [h]
    exact .done _
  refine hchecked.bind_ok ((Tracking.latest_yields down st e p).bind_ok ?_)
  unfold Stores.expected?
  cases st.located? down e p with
  | none => exact Yields.bind_error (.done _)
  | some s => exact Yields.bind_ok (.done _) (.done _)

/-- **The estimates for several participants.** -/
theorem ofEach_yields (c : EtaConfig) (h : target.validate = .ok ()) (ids : List String) :
    st.Yields down (ofEach c e ids target).run
      (.ok (ids.filterMap (st.expected? down c e target))) := by
  have hchecked : st.Yields down (Job.checked target.validate).run (.ok ()) := by
    rw [h]
    exact .done _
  have hmap : ids.filterMap (st.expected? down c e target) =
      (ids.filterMap (st.located? down e)).map fun s =>
        Estimate.ofSample s target c.averageSpeedKmh := List.map_filterMap.symm
  rw [hmap]
  exact hchecked.bind_ok ((Tracking.latestOfEach_yields down st e ids).bind_ok (.done _))

/-- **The estimates for those who will come to an event.** -/
theorem ofEvent_yields (c : EtaConfig) (h : target.validate = .ok ()) {event : Event}
    (hevent : st.roster.event? e = some event) (htarget : event.location = some target) :
    st.Yields down (ofEvent c e).run
      (.ok (((comers (st.roster.participantsOf e)).map (·.id)).filterMap
        (st.expected? down c e target))) := by
  have hlooked : Stores.respond st.roster (.getEvent e) = (.ok (some event), st.roster) := by
    rw [← hevent]
    rfl
  have hmeeting : st.Yields down (Job.checked (meetingPoint event e)).run (.ok target) := by
    unfold meetingPoint
    rw [htarget]
    exact .done _
  -- the event is looked up, and the place where it meets is read off
  refine Yields.bind (Yields.roster hlooked (.done _)) (Yields.bind_ok (.done _) ?_)
  refine hmeeting.bind_ok ?_
  exact Yields.bind (Yields.roster rfl (.done _)) (ofEach_yields c h _)

/-- **Reading at once agrees with reading one by one**, while the stores stand still, whatever they
hold and whether or not the cache is down. -/
theorem batch_agrees (down : Bool) (st : Stores) (e : String) :
    ∃ found : String → Option Sample,
      (∀ p, st.Yields down (Tracking.latest e p).run (.ok (found p))) ∧
      (∀ ids, st.Yields down (Tracking.latestOfEach e ids).run (.ok (ids.filterMap found))) ∧
      ∀ (c : EtaConfig) (target : Coordinate), target.validate = .ok () →
        ∃ expected : String → Option Estimate,
          (∀ p, st.Yields down (ofParticipant c e p target).run
            ((expected p).elim (.error (.notFound "location" p)) .ok)) ∧
          (∀ ids, st.Yields down (ofEach c e ids target).run
            (.ok (ids.filterMap expected))) ∧
          ∀ event, st.roster.event? e = some event → event.location = some target →
            st.Yields down (ofEvent c e).run
              (.ok ((((st.roster.participantsOf e).filter fun p => p.status = .confirmed).map
                (·.id)).filterMap expected)) := by
  refine ⟨st.located? down e, Tracking.latest_yields down st e,
    Tracking.latestOfEach_yields down st e, fun c target h => ?_⟩
  refine ⟨st.expected? down c e target, ofParticipant_yields c h, ofEach_yields c h, ?_⟩
  exact fun event hevent htarget => ofEvent_yields c h hevent htarget

/-- Stores in which one participant will come to an event, has reported a place, and has an entry in
the cache that cannot be read. -/
def corrupted : Stores where
  clock := 0
  cache := Cache.TimedMap.empty.set 0 (Cache.Key.location "e" "p") .empty none
  roster := ⟨Keyed.empty.insert "e" ⟨"e", "o", "", .scheduled, .epoch, none, some ⟨0, 0⟩⟩,
    [⟨"p", "e", "o", "", "", .confirmed⟩]⟩
  trail := ⟨[.ofPlace "e" "p" .epoch]⟩

/-- The participant whose entry cannot be read is not left out. -/
theorem batch_agrees_of_corrupted :
    corrupted.readable false (Cache.Key.location "e" "p") = some .empty ∧
      Sample.ofBytes? .empty = none ∧
      ∃ estimate, corrupted.Yields false (ofEvent {} "e").run (.ok [estimate]) := by
  have hentry : corrupted.readable false (Cache.Key.location "e" "p") = some .empty := rfl
  have hcorrupt : Sample.ofBytes? .empty = none := by decide +kernel
  have hlocated : corrupted.located? false "e" "p" = some (.ofPlace "e" "p" .epoch) := by
    unfold Stores.located?
    rw [hentry, Option.bind_some, hcorrupt]
    rfl
  obtain ⟨_, -, -, hestimates⟩ := batch_agrees false corrupted "e"
  obtain ⟨expected, hone, -, hevent⟩ := hestimates {} ⟨0, 0⟩ (by decide +kernel)
  have hsingle := (ofParticipant_yields {} (by decide +kernel) "p").unique (hone "p")
  unfold Stores.expected? at hsingle
  rw [hlocated] at hsingle
  have hall := hevent _ rfl rfl
  have hcomers : ((corrupted.roster.participantsOf "e").filter fun p => p.status = .confirmed).map
      (·.id) = ["p"] := rfl
  rw [hcomers] at hall
  refine ⟨hentry, hcorrupt, ?_⟩
  cases hp : expected "p" with
  | none =>
    rw [hp] at hsingle
    cases hsingle
  | some estimate =>
    rw [List.filterMap_cons_some hp, List.filterMap_nil] at hall
    exact ⟨estimate, hall⟩

end Forecast

end Gathering
