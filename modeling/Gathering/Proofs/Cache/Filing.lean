import Gathering.Location.Tracking
import Gathering.Proofs.Location.Tracking
import Gathering.Proofs.Program.Protocol
import Gathering.Proofs.Store.Stores
import Gathering.Rsvp

/-!
# How recordings file what they write

Locations and replies share one cache. A recording writes an entry under the name
of the identifiers that the entry holds, and it writes nothing else
(`Recording.asks`). So whatever recordings run, in whatever order they take turns,
every entry of the cache stays **filed**: it stands under its own name
(`Stores.IsFiled.answers`).
-/

namespace Gathering

/-! ## Recordings

Both kinds of recordings obey the same protocol: what they write is filed. It says nothing about
what they read, nor about other calls. -/

/-- **An entry that is filed as recordings file it**: under the name of its own identifiers. -/
inductive Filed (places : String → String → Prop) (replies : String → String → String → Prop) :
    String → ByteArray → Prop
  /-- A location. -/
  | location (s : Sample) (h : places s.eventId s.participantId)
      (hevent : Text.isBlank s.eventId = false)
      (hparticipant : Text.isBlank s.participantId = false) :
      Filed places replies (Cache.Key.location s.eventId s.participantId) s.toBytes
  /-- A reply. -/
  | reply (c : Confirmation) (h : replies c.orgId c.eventId c.participantId) :
      Filed places replies (Cache.Key.confirmation c.orgId c.eventId c.participantId) c.toBytes

/-- **A recording** of a location or a reply, about identifiers of some kind. -/
inductive Recording (places : String → String → Prop)
    (replies : String → String → String → Prop) : Work Unit → Prop
  /-- A device reports where a participant is. -/
  | location (c : LocationConfig) (r : Report) (h : places r.eventId r.participantId) :
      Recording places replies ((fun _ => ()) <$> (Tracking.record c r).run)
  /-- A participant replies. -/
  | reply (c : EventCacheConfig) (orgId eventId participantId : String) (status : Rsvp)
      (h : replies orgId eventId participantId) :
      Recording places replies
        ((fun _ => ()) <$> (Rsvp.record c orgId eventId participantId status).run)

variable {places : String → String → Prop} {replies : String → String → String → Prop}

/-- The effects of recordings: what they write is filed. -/
def Files (places : String → String → Prop) (replies : String → String → String → Prop)
    (e : Effect) : Prop :=
  ∀ key value ttl, e = .request (.cache (.set key value ttl)) → Filed places replies key value

theorem files_of_ne {e : Effect} (h : ∀ key value ttl, e ≠ .request (.cache (.set key value ttl))) :
    Files places replies e :=
  fun key value ttl he => absurd he (h key value ttl)

/-- **Recording a location files it.** -/
theorem Tracking.record_files (c : LocationConfig) (r : Report)
    (h : places r.eventId r.participantId) :
    (record c r).Asks (Files places replies) := by
  refine record_asks c (files_of_ne fun _ _ _ h => by cases h)
    (fun _ _ _ => files_of_ne fun _ _ _ h => by cases h) (files_of_ne fun _ _ _ h => by cases h)
    (files_of_ne fun _ _ _ h => by cases h) fun now s hs ttl => ?_
  rintro _ _ _ ⟨⟩
  obtain ⟨hcheck, hevent, hparticipant⟩ := Report.toSample_eq_ok hs
  obtain ⟨he, hp⟩ := Report.isBlank_of_check hcheck
  rw [← hevent] at h he
  rw [← hparticipant] at h hp
  exact .location s h he hp

theorem Confirmation.cache_asks (c : EventCacheConfig) (entry : Confirmation)
    (until_ : Option Instant) (h : replies entry.orgId entry.eventId entry.participantId) :
    (entry.cache c until_).Asks (Files places replies) := by
  refine Job.Obeys.lift (files_of_ne fun _ _ _ h => by cases h) fun now => ?_
  split
  · refine Job.Asks.cache fun key value ttl he => ?_
    cases he
    exact .reply entry h
  · trivial

/-- **Recording a reply files it.** -/
theorem Rsvp.record_asks (c : EventCacheConfig) (orgId eventId participantId : String)
    (status : Rsvp) (h : replies orgId eventId participantId) :
    (record c orgId eventId participantId status).Asks (Files places replies) := by
  refine Job.Obeys.roster (files_of_ne fun _ _ _ h => by cases h) (fun someone => ?_)
    fun _ => trivial
  refine Job.Obeys.found (fun participant _ => ?_) fun _ => trivial
  refine Job.Obeys.roster (files_of_ne fun _ _ _ h => by cases h) (fun event => ?_)
    fun _ => trivial
  refine Job.Obeys.roster (files_of_ne fun _ _ _ h => by cases h) (fun _ => ?_) fun _ => trivial
  refine Job.Obeys.lift (files_of_ne fun _ _ _ h => by cases h) fun now => ?_
  exact Job.Obeys.liftBind (Job.Asks.run (Confirmation.cache_asks c _ _ h)) fun _ _ _ => trivial

/-- **Every recording files what it writes.** -/
theorem Recording.asks {p : Work Unit} (h : Recording places replies p) :
    p.Asks (Files places replies) := by
  cases h with
  | location c r h =>
    rw [← bind_pure_comp]
    exact Work.Obeys.bind (Job.Asks.run (Tracking.record_files c r h)) fun _ _ _ => trivial
  | reply c orgId eventId participantId status h =>
    rw [← bind_pure_comp]
    exact Work.Obeys.bind
      (Job.Asks.run (Rsvp.record_asks c orgId eventId participantId status h)) fun _ _ _ => trivial

/-! ## A cache that is filed

Entries may lapse and be removed at any time, which leaves the others filed. -/

/-- **Everything in the cache is filed.** -/
def Stores.IsFiled (places : String → String → Prop) (replies : String → String → String → Prop)
    (st : Stores) : Prop :=
  ∀ key entry, st.cache.entries.find? key = some entry → Filed places replies key entry.value

variable {fails : Request → Prop} {st st' : Stores}

/-- An empty cache is filed. -/
theorem Stores.isFiled_of_empty (h : st.cache = .empty) : st.IsFiled places replies := by
  intro key entry hfind
  rw [h] at hfind
  cases hfind

/-- Passing time moves nothing. -/
theorem Stores.IsFiled.passes (hfiled : st.IsFiled places replies) (h : st.Passes st') :
    st'.IsFiled places replies := by
  intro key entry hfind
  rw [h.2] at hfind
  exact hfiled key entry hfind

/-- **What files what it writes keeps the cache filed.** -/
theorem Stores.IsFiled.answers {e : Effect} {answer : e.Answer}
    (hfiles : Files places replies e) (hfiled : st.IsFiled places replies)
    (h : Answers fails st e answer st') : st'.IsFiled places replies := by
  intro key entry hfind
  rcases h.value hfind with ⟨old, hold, hvalue⟩ | ⟨ttl, he⟩
  · exact hvalue ▸ hfiled key old hold
  · exact hfiles key entry.value ttl he

end Gathering
