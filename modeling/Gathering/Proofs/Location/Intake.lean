import Gathering.Proofs.Cache.Key
import Gathering.Proofs.Location.Sample
import Gathering.Proofs.Location.Tracking
import Gathering.Proofs.Store.Stores
import Gathering.Proofs.Store.Trail

/-!
# What one report does to a participant's location

A report that is accepted adds one sample to the history, and then the cache is
refreshed: the sample may be written there, or the entry may be left as it is
because its lifetime is over, because a newer location is cached, or because the
cache has failed. All this is read off from the run of one report
(`Tracking.recorded_of_runs`), for any participant of any event: a report about
somebody else leaves the participant's entry and history alone.

Others may move the clock and change events and participants at any time, but
what they do **spares** the participant's entry and history (`Stores.Spares`).
-/

namespace Gathering

open Cache (TimedMap)

/-! ## What is left alone

An entry that is left alone may still lapse while time passes. So a location that is found later
was there before, but not the other way round. -/

namespace Stores

variable {e p : String} {st st' st'' : Stores}

/-- **The entry of a participant's location is left alone**, while time passes. -/
structure KeepsEntry (e p : String) (st st' : Stores) : Prop where
  /-- The clock does not go back. -/
  clock : st.clock ≤ st'.clock
  /-- The entry is the same. -/
  entry : st'.cache.entries.find? (Cache.Key.location e p) =
    st.cache.entries.find? (Cache.Key.location e p)

/-- **The entry and the history of a participant's location are left alone**, while time passes. -/
structure Spares (e p : String) (st st' : Stores) : Prop extends KeepsEntry e p st st' where
  /-- The history is the same. -/
  samples : st'.trail.of e p = st.trail.of e p

theorem KeepsEntry.refl (st : Stores) : KeepsEntry e p st st := ⟨Nat.le_refl _, rfl⟩

theorem KeepsEntry.trans (h : KeepsEntry e p st st') (h' : KeepsEntry e p st' st'') :
    KeepsEntry e p st st'' :=
  ⟨Nat.le_trans h.clock h'.clock, h'.entry.trans h.entry⟩

theorem Spares.refl (st : Stores) : Spares e p st st := ⟨.refl st, rfl⟩

theorem Spares.trans (h : Spares e p st st') (h' : Spares e p st' st'') : Spares e p st st'' :=
  ⟨h.toKeepsEntry.trans h'.toKeepsEntry, h'.samples.trans h.samples⟩

/-- **The cached location of a participant**, if there is one that can be read. -/
def cached? (st : Stores) (e p : String) : Option Sample :=
  (st.cache.get? st.clock (Cache.Key.location e p)).bind Sample.ofBytes?

/-- The stores once a sample is cached. -/
def cached (st : Stores) (s : Sample) (ttl : Span) : Stores :=
  { st with
    cache := st.cache.set st.clock (Cache.Key.location s.eventId s.participantId) s.toBytes
      (some ttl) }

/-- The stores once a sample is added to the history. -/
def appended (st : Stores) (s : Sample) : Stores := { st with trail := st.trail.append s }

theorem samples_appended (st : Stores) (s : Sample) (e p : String) :
    (st.appended s).trail.of e p = st.trail.of e p ++ [s].filter (·.isOf e p) :=
  Trail.of_append _ _ _ _

/-- An entry that is left alone can only lapse. -/
theorem KeepsEntry.cached? {s : Sample} (h : KeepsEntry e p st st')
    (hcached : st'.cached? e p = some s) : st.cached? e p = some s := by
  obtain ⟨bytes, hget, hread⟩ := Option.bind_eq_some_iff.mp hcached
  obtain ⟨entry, hfind, hlive, rfl⟩ := TimedMap.get?_eq_some_iff.mp hget
  refine Option.bind_eq_some_iff.mpr ⟨entry.value, TimedMap.get?_eq_some_iff.mpr ?_, hread⟩
  exact ⟨entry, h.entry ▸ hfind, Cache.Entry.isLive_of_le h.clock hlive, rfl⟩

end Stores

namespace Tracking

open Stores (Spares KeepsEntry)

variable {fails : Request → Prop} {e p : String} {st st' : Stores} {s : Sample}

/-- **How reports about a participant are taken in**: some calls may fail, and others spare the
participant. -/
abbrev amid (fails : Request → Prop) (e p : String) : Surroundings Stores :=
  Stores.shared fails (Spares e p)

/-! ## Caching -/

/-- The call that asks for the cached location of a sample's participant. -/
abbrev getCall (s : Sample) : Cache.Call := .get (Cache.Key.location s.eventId s.participantId)

/-- The call that caches a sample. -/
abbrev setCall (s : Sample) (ttl : Span) : Cache.Call :=
  .set (Cache.Key.location s.eventId s.participantId) s.toBytes (some ttl)

/-- **What caching a sample has done.** -/
inductive Caching (e p : String) (s : Sample) (st : Stores) (turns : List (Turn Stores))
    (st' : Stores) : Prop
  /-- The sample was not written. -/
  | left (spared : Spares e p st st')
      (unwritten : ∀ st₁ ttl st₂, ⟨st₁, .request (.cache (setCall s ttl)), .ok (), st₂⟩ ∉ turns)
  /-- The cache was asked, what it said was not newer, and the sample was written. -/
  | written (st₁ st₂ : Stores) (answer : Except Error (Option ByteArray)) (cached : Option Sample)
      (ttl : Span) (before : Spares e p st st₁)
      (asked : ⟨st₁, .request (.cache (getCall s)), answer, st₁⟩ ∈ turns)
      (said : (answer = .ok (st₁.cache.get? st₁.clock
          (Cache.Key.location s.eventId s.participantId)) ∧
        cached = st₁.cached? s.eventId s.participantId) ∨ ∃ err, answer = .error err)
      (newer : isNewer cached s = false) (between : Spares e p st₁ st₂)
      (set : ⟨st₂, .request (.cache (setCall s ttl)), .ok (), st₂.cached s ttl⟩ ∈ turns)
      (wrote : st' = st₂.cached s ttl)

/-- **How the cache is asked for a location.** -/
theorem runs_cached? {W : Stores → Stores → Prop} {key : String}
    {turns : List (Turn Stores)} {r : Option Sample}
    (run : Work.Runs (Stores.shared fails W) st (cached? key) turns r st') :
    ∃ answer, turns = [⟨st', .request (.cache (.get key)), answer, st'⟩] ∧ W st st' ∧
      ((answer = .ok (st'.cache.get? st'.clock key) ∧
          r = (st'.cache.get? st'.clock key).bind Sample.ofBytes?) ∨
        (∃ err, answer = .error err) ∧ r = none) := by
  obtain ⟨st₁, answer, st₂, rest, rfl, others, answered, hrest⟩ := Work.runs_call_iff.mp run
  clear run
  obtain ⟨rfl, rfl | ⟨err, rfl⟩⟩ := Stores.Answers.of_get answered
  · have hpure : Work.Runs (Stores.shared fails W) st₂
        (pure ((st₂.cache.get? st₂.clock key).bind Sample.ofBytes?)) rest r st' := by
      cases hget : st₂.cache.get? st₂.clock key <;> rw [hget] at hrest <;> exact hrest
    obtain ⟨rfl, rfl, rfl⟩ := Work.runs_pure_iff.mp hpure
    exact ⟨_, rfl, others, .inl ⟨rfl, rfl⟩⟩
  · cases hrest
    exact ⟨_, rfl, others, .inr ⟨⟨err, rfl⟩, rfl⟩⟩

/-- A cache that answers says which location can be read. -/
theorem runs_cached?_answering {W : Stores → Stores → Prop} {key : String}
    {turns : List (Turn Stores)} {r : Option Sample} (hanswers : ∀ call, ¬ fails (.cache call))
    (run : Work.Runs (Stores.shared fails W) st (cached? key) turns r st') :
    W st st' ∧ r = (st'.cache.get? st'.clock key).bind Sample.ofBytes? := by
  obtain ⟨answer, rfl, others, ⟨-, hr⟩ | ⟨⟨err, rfl⟩, -⟩⟩ := runs_cached? run
  · exact ⟨others, hr⟩
  · have hanswered := run.answered _ (List.mem_singleton_self _)
    obtain ⟨herr, -⟩ := hanswered.of_cache (hanswers _)
    cases herr

/-- **What caching a sample does**, whatever happens meanwhile.

The sample is not written if nothing is left of its lifetime, if the cache shows a newer location,
or if the write fails; and what the cache has shown is the entry at that moment, or nothing
because the cache has failed. -/
theorem caching_of_runs {until_ : Instant} {turns : List (Turn Stores)} {r : Except Error Unit}
    (run : Work.Runs (amid fails e p) st (cacheLatest s until_).run turns r st') :
    Caching e p s st turns st' := by
  rw [run_cacheLatest] at run
  obtain ⟨st₁, now, st₂, rest, rfl, others, answered, hrest⟩ := Work.runs_call_iff.mp run
  clear run
  obtain rfl := answered.eq_of_isElsewhere rfl
  cases hremaining : until_.remaining now with
  | none =>
    rw [hremaining] at hrest
    cases hrest
    exact .left others (by simp)
  | some ttl =>
    rw [hremaining] at hrest
    obtain ⟨first, last, cached, st₃, rfl, hread, hlast⟩ := Work.runs_bind_iff.mp hrest
    clear hrest
    obtain ⟨answer, rfl, others', hsaid⟩ := runs_cached? hread
    cases hnewer : isNewer cached s with
    | true =>
      rw [if_pos hnewer] at hlast
      cases hlast
      exact .left (others.trans others') (by simp)
    | false =>
      rw [if_neg (by simp [hnewer])] at hlast
      cases hlast with
      | ask others'' answered' hdone =>
        cases hdone
        rcases answered'.of_set with ⟨rfl, rfl⟩ | ⟨⟨err, rfl⟩, rfl⟩
        · exact .written st₃ _ answer cached ttl (others.trans others') (by simp)
            (hsaid.imp_right (fun h => h.1)) hnewer others'' (by simp [Stores.cached]) rfl
        · exact .left ((others.trans others').trans others'') (by simp)

/-! ## Recording -/

/-- Looking up a lifetime is a call of the store of events, and it spares everybody. -/
theorem runs_lifetimeEnd {c : LocationConfig} {eventId : String} {now until_ : Instant}
    {turns : List (Turn Stores)}
    (run : Work.Runs (amid fails e p) st (lifetimeEnd c eventId now) turns until_ st') :
    Spares e p st st' ∧ ∀ turn ∈ turns, turn.effect = .request (.roster (.getEvent eventId)) := by
  obtain ⟨st₁, answer, st₂, rest, rfl, others, answered, hrest⟩ := Work.runs_call_iff.mp run
  clear run
  obtain ⟨roster, rfl⟩ := answered.of_roster
  have hspares : Spares e p st { st₁ with roster := roster } :=
    ⟨⟨others.clock, others.entry⟩, others.samples⟩
  match answer with
  | .ok (some event) =>
    cases hrest
    exact ⟨hspares, by simp⟩
  | .ok none | .error _ =>
    cases hrest
    exact ⟨hspares, by simp⟩

/-- **What taking in a report has done**: it was refused and nothing has happened, or its sample was
appended to the history and then cached. -/
inductive Recorded (e p : String) (r : Report) (st : Stores) (turns : List (Turn Stores)) :
    Except Error Sample → Stores → Prop
  /-- The report was refused. -/
  | refused (err : Error) (st' : Stores) (spared : Spares e p st st') :
      Recorded e p r st turns (.error err) st'
  /-- The report was accepted. -/
  | accepted (s : Sample) (st₁ st₂ st' : Stores) (first last : List (Turn Stores)) (now : Instant)
      (sound : r.toSample now = .ok s) (before : Spares e p st st₁)
      (between : Spares e p (st₁.appended s) st₂)
      (uncached : ∀ turn ∈ first, ∀ call, turn.effect ≠ .request (.cache call))
      (caching : Caching e p s st₂ last st') (split : turns = first ++ last) :
      Recorded e p r st turns (.ok s) st'

/-- **What taking in a report does**, whatever happens meanwhile.

The calls of the history do not fail here. With the other calls it does not matter: a failed
look-up of the event leads to the default lifetime, and what becomes of the cache is in
`Caching`. -/
theorem recorded_of_runs {c : LocationConfig} {r : Report} {turns : List (Turn Stores)}
    {result : Except Error Sample} (hholds : ∀ call, ¬ fails (.trail call))
    (run : Work.Runs (amid fails e p) st (record c r).run turns result st') :
    Recorded e p r st turns result st' := by
  rw [run_record] at run
  obtain ⟨st₁, now, st₂, rest, rfl, others, answered, hrest⟩ := Work.runs_call_iff.mp run
  clear run
  obtain rfl := answered.eq_of_isElsewhere rfl
  cases hsample : r.toSample now with
  | error err =>
    rw [hsample] at hrest
    cases hrest
    exact .refused err _ others
  | ok s =>
    rw [hsample] at hrest
    obtain ⟨st₃, answer, st₄, rest, rfl, others', appended, hrest⟩ :=
      Work.runs_call_iff.mp hrest
    obtain ⟨rfl, rfl⟩ := appended.of_trail (hholds _)
    obtain ⟨second, rest, until_, st₅, rfl, hlifetime, hrest⟩ := Work.runs_bind_iff.mp hrest
    obtain ⟨third, last, ended, st₆, rfl, hcaching, hrest⟩ := Work.runs_bind_iff.mp hrest
    obtain ⟨hspares, hlooked⟩ := runs_lifetimeEnd hlifetime
    cases hrest
    rw [List.append_nil]
    refine .accepted s st₃ st₅ st' (_ :: _ :: second) third now hsample (others.trans others')
      hspares ?_ (caching_of_runs hcaching) rfl
    refine List.forall_mem_cons.mpr ⟨by simp, List.forall_mem_cons.mpr ⟨by simp, ?_⟩⟩
    intro turn hturn call
    simp [hlooked turn hturn]

end Tracking

end Gathering
