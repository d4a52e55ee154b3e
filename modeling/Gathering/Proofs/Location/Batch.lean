import Gathering.Location.Tracking
import Gathering.Proofs.Location.Tracking
import Gathering.Proofs.Store.Quiet
import Mathlib.Data.List.Basic

/-!
# Reading several locations at once

The latest location of one participant is looked for in the cache and then in the
history. For several participants the cache is asked once, and then each of them is
looked for in its own answer. While the stores stand still, the location of each is
the same either way (`Tracking.latest_yields`, `Tracking.latestOfEach_yields`):
bytes that cannot be read and entries that have lapsed lead to the history in both,
and so does a cache that is down.

The stores stand still while this is compared, since otherwise two readings may well
differ: a location that is recorded in between is found by the one and not by the
other.
-/

namespace Gathering

variable {down : Bool} {st : Stores}

/-- **The location that is found for a participant**: the cached one if it can be read, and the
latest one of the history otherwise. -/
def Stores.located? (st : Stores) (down : Bool) (eventId participantId : String) : Option Sample :=
  ((st.readable down (Cache.Key.location eventId participantId)).bind Sample.ofBytes?).or
    (st.trail.latest eventId participantId)

namespace Tracking

open Stores (Yields)

/-- Looking for one cached location. -/
theorem cached?_yields (down : Bool) (st : Stores) (key : String) :
    st.Yields down (cached? key) ((st.readable down key).bind Sample.ofBytes?) := by
  refine Yields.cache rfl (fun hup => ?_) fun hdown err => ?_
  · subst hup
    cases hget : (st.cache.perform st.clock (.get key)).1 with
    | none =>
      rw [show st.readable false key = none from hget]
      exact .done _
    | some bytes =>
      rw [show st.readable false key = some bytes from hget]
      exact .done _
  · subst hdown
    exact .done _

/-- **The latest location of one participant.** -/
theorem latest_yields (down : Bool) (st : Stores) (e p : String) :
    st.Yields down (latest e p).run (.ok (st.located? down e p)) := by
  rw [run_latest]
  refine (cached?_yields down st _).bind ?_
  unfold Stores.located?
  cases (st.readable down (Cache.Key.location e p)).bind Sample.ofBytes? with
  | some s => exact .done _
  | none => exact Yields.trail rfl (.done _)

/-- Looking for each participant in its own answer. -/
theorem fillIn_yields (down : Bool) (st : Stores) (e : String)
    (answers : List (String × Option ByteArray)) :
    st.Yields down (fillIn e answers).run
      (.ok (answers.filterMap fun a => (a.2.bind Sample.ofBytes?).or (st.trail.latest e a.1))) := by
  induction answers with
  | nil => exact .done _
  | cons answer rest ih =>
    obtain ⟨p, bytes⟩ := answer
    rw [List.filterMap_eq_flatMap_toList] at ih ⊢
    rw [List.flatMap_cons]
    unfold fillIn
    cases bytes.bind Sample.ofBytes? with
    | some s => exact ih.bind_ok (.done _)
    | none => exact Yields.trail rfl (ih.bind_ok (.done _))

/-- **The latest locations of several participants** are those of each of them, in order, and those
without one are left out. -/
theorem latestOfEach_yields (down : Bool) (st : Stores) (e : String) (ids : List String) :
    st.Yields down (latestOfEach e ids).run (.ok (ids.filterMap (st.located? down e))) := by
  have hanswers : ids.filterMap (st.located? down e) =
      (ids.zip (ids.map fun p => st.readable down (Cache.Key.location e p))).filterMap
        fun a => (a.2.bind Sample.ofBytes?).or (st.trail.latest e a.1) := by
    rw [← List.map_prod_left_eq_zip, List.filterMap_map]
    rfl
  rw [run_latestOfEach, hanswers]
  refine Yields.cache rfl (fun hup => ?_) fun hdown err => ?_
  · subst hup
    have hmany : (st.cache.perform st.clock (.getMany (ids.map (Cache.Key.location e)))).1 =
        ids.map fun p => st.readable false (Cache.Key.location e p) := List.map_map
    rw [hmany]
    exact fillIn_yields false st e _
  · subst hdown
    exact fillIn_yields true st e _

end Tracking

end Gathering
