import Gathering.Proofs.Location.Intake
import Gathering.Proofs.Rsvp

/-!
# Recordings that nobody disturbs

While nobody comes in between and nothing fails, a recording does the same thing
every time, and its end can be written down: a location is refreshed in the cache
(`Tracking.reaches_record`), and a reply is put there (`Rsvp.reaches_record`).
These are the simplest runs there are, and they are enough to show that what is
said of all runs is not said of none.
-/

namespace Gathering

open Cache (TimedMap)

variable (fails : Request → Prop) {others : Stores → Stores → Prop} {st : Stores}

/-! ## Locations

A recording goes through a look at the clock, the end of the history, a look-up of the event and
the cache. Where nobody comes in between, the stores at each of these can be written down.

A recording looks at the clock, appends its sample, looks up the event and then turns to the
cache. Where nobody comes in between, the stores after each of these can be written down. -/

theorem Stores.get?_cached (st : Stores) (s : Sample) {ttl : Span} (h : 0 < ttl.nanos) :
    (st.cached s ttl).cache.get? (st.cached s ttl).clock
      (Cache.Key.location s.eventId s.participantId) = some s.toBytes :=
  TimedMap.get?_set_self _ _ _ _ h

/-- A place that is cached for a while is found at once. -/
theorem Stores.cached?_cached_ofPlace (st : Stores) (e p : String) (t : Instant) {ttl : Span}
    (h : 0 < ttl.nanos) :
    (st.cached (.ofPlace e p t) ttl).cached? e p = some (.ofPlace e p t) := by
  refine (congrArg (Option.bind · Sample.ofBytes?) (st.get?_cached (.ofPlace e p t) h)).trans ?_
  exact (Sample.ofBytes?_toBytes _).trans (Sample.reread?_ofPlace e p t)

/-- Until when what is cached about an event lives. -/
def Roster.lifetimeEnd (r : Roster) (c : LocationConfig) (eventId : String) (now : Instant) :
    Instant :=
  ((r.event? eventId).bind (·.endsAt)).getD (now.add c.defaultTtl)

/-- **The stores once the cache is refreshed** for the rest of a lifetime, if there is any left. -/
def Stores.refreshed (st : Stores) (s : Sample) : Option Span → Stores
  | none => st
  | some ttl =>
    if Tracking.isNewer (st.cached? s.eventId s.participantId) s then st else st.cached s ttl

/-- A newer location in the cache stays there. -/
theorem Stores.refreshed_of_isNewer {s : Sample} (ttl : Option Span)
    (h : Tracking.isNewer (st.cached? s.eventId s.participantId) s = true) :
    st.refreshed s ttl = st := by
  unfold refreshed
  cases ttl with
  | none => rfl
  | some ttl => exact if_pos h

theorem Stores.refreshed_of_none {s : Sample} (ttl : Span)
    (h : st.cached? s.eventId s.participantId = none) :
    st.refreshed s (some ttl) = st.cached s ttl := by
  unfold refreshed
  rw [h]
  rfl

theorem Stores.roster_refreshed (st : Stores) (s : Sample) (ttl : Option Span) :
    (st.refreshed s ttl).roster = st.roster := by
  unfold refreshed
  cases ttl with
  | none => rfl
  | some ttl => cases Tracking.isNewer (st.cached? s.eventId s.participantId) s <;> rfl

namespace Tracking

/-- An undisturbed look at a cached location. -/
theorem reaches_cached? (hrefl : ∀ st, others st st) (e p : String) (st : Stores) :
    Work.Reaches (Stores.shared fails others) st (cached? (Cache.Key.location e p))
      (st.cached? e p) st := by
  refine Stores.reaches_cache hrefl ?_
  unfold Stores.cached?
  cases hget : (st.cache.perform st.clock (.get (Cache.Key.location e p))).1 with
  | none =>
    rw [show st.cache.get? st.clock (Cache.Key.location e p) = none from hget]
    exact .done _ _
  | some bytes =>
    rw [show st.cache.get? st.clock (Cache.Key.location e p) = some bytes from hget]
    exact .done _ _

/-- An undisturbed look at the lifetime of an event. -/
theorem reaches_lifetimeEnd (hrefl : ∀ st, others st st) (c : LocationConfig) (eventId : String)
    (now : Instant) (st : Stores) :
    Work.Reaches (Stores.shared fails others) st (lifetimeEnd c eventId now)
      (st.roster.lifetimeEnd c eventId now) st := by
  have hlooked : Stores.respond st.roster (.getEvent eventId) =
      (.ok (st.roster.event? eventId), st.roster) := rfl
  refine Stores.reaches_roster hrefl hlooked ?_
  unfold Roster.lifetimeEnd
  cases st.roster.event? eventId <;> exact .done _ _

/-- An undisturbed refreshing of the cache begins with a look at the clock. -/
theorem exists_runs_cacheLatest (hrefl : ∀ st, others st st) (s : Sample) (until_ now : Instant)
    (st : Stores) :
    ∃ rest, Work.Runs (Stores.shared fails others) st (cacheLatest s until_).run
      (⟨st, .request .now, now, st⟩ :: rest) (.ok ()) (st.refreshed s (until_.remaining now)) := by
  have hclock : Stores.Answers fails st (.request .now) now st :=
    @Stores.Answers.elsewhere fails st (.request .now) rfl now
  rw [run_cacheLatest]
  refine Work.Reaches.exists_runs (hrefl st) hclock ?_
  cases until_.remaining now with
  | none => exact .done _ _
  | some ttl =>
    refine (reaches_cached? fails hrefl s.eventId s.participantId st).bind ?_
    unfold Stores.refreshed
    cases isNewer (st.cached? s.eventId s.participantId) s with
    | true => exact .done _ _
    | false => exact Stores.reaches_cache hrefl (.done _ _)

theorem reaches_cacheLatest (hrefl : ∀ st, others st st) (s : Sample) (until_ now : Instant)
    (st : Stores) :
    Work.Reaches (Stores.shared fails others) st (cacheLatest s until_).run (.ok ())
      (st.refreshed s (until_.remaining now)) :=
  (exists_runs_cacheLatest fails hrefl s until_ now st).elim fun _ run => ⟨_, run⟩

/-- A refreshing of the cache in which only the write fails leaves everything as it was. -/
theorem reaches_cacheLatest_failing (hrefl : ∀ st, others st st) {s : Sample}
    {until_ now : Instant} {ttl : Span} (httl : until_.remaining now = some ttl)
    (hnewer : isNewer (st.cached? s.eventId s.participantId) s = false)
    (hfails : fails (.cache (setCall s ttl))) (err : Error) :
    Work.Reaches (Stores.shared fails others) st (cacheLatest s until_).run (.error err) st := by
  rw [run_cacheLatest]
  refine Stores.reaches_elsewhere hrefl now rfl ?_
  rw [httl]
  refine (reaches_cached? fails hrefl s.eventId s.participantId st).bind ?_
  rw [hnewer]
  exact .ask (hrefl st) (.cacheFails hfails err) (.done _ _)

/-- A recording of a location is undisturbed if its caching is: its sample is added to the history
first, and the recording ends well however the caching ends.

So what becomes of the cache can be put in as it is needed, also a failure. -/
theorem reaches_record_of_cacheLatest (hrefl : ∀ st, others st st) {c : LocationConfig}
    {r : Report} {now : Instant} {s : Sample} {ended : Except Error Unit} {st' : Stores}
    (h : r.toSample now = .ok s)
    (hcached : Work.Reaches (Stores.shared fails others) (st.appended s)
      (cacheLatest s (st.roster.lifetimeEnd c s.eventId now)).run ended st') :
    Work.Reaches (Stores.shared fails others) st (record c r).run (.ok s) st' := by
  rw [run_record]
  refine Stores.reaches_elsewhere hrefl now rfl ?_
  rw [h]
  exact Stores.reaches_trail hrefl
    ((reaches_lifetimeEnd fails hrefl c s.eventId now _).bind (hcached.bind (.done _ _)))

/-- **An undisturbed recording of a location**: its sample is added to the history, and then the
cache is refreshed. -/
theorem reaches_record (hrefl : ∀ st, others st st) {c : LocationConfig} {r : Report}
    {now : Instant} {s : Sample} {ttl : Option Span} (h : r.toSample now = .ok s)
    (hlifetime : (st.roster.lifetimeEnd c s.eventId now).remaining now = ttl) :
    Work.Reaches (Stores.shared fails others) st (record c r).run (.ok s)
      ((st.appended s).refreshed s ttl) := by
  subst hlifetime
  exact reaches_record_of_cacheLatest fails hrefl h (reaches_cacheLatest fails hrefl s _ now _)

/-- An undisturbed search for a location that is cached. -/
theorem reaches_latest (hrefl : ∀ st, others st st) {e p : String} {s : Sample}
    (h : st.cached? e p = some s) :
    Work.Reaches (Stores.shared fails others) st (latest e p).run (.ok (some s)) st := by
  have hcached := reaches_cached? fails hrefl e p st
  rw [h] at hcached
  rw [run_latest]
  exact hcached.bind (.done _ _)

/-- What is cached at the epoch lives for a while by default. -/
theorem exists_remaining_epoch :
    ∃ ttl : Span, (Instant.epoch.add defaultCacheTtl).remaining .epoch = some ttl ∧
      0 < ttl.nanos :=
  ⟨_, rfl, by decide⟩

/-- The stores once the first place is recorded at the epoch. -/
def placed (e p : String) (ttl : Span) : Stores :=
  (Stores.empty.appended (.ofPlace e p .epoch)).cached (.ofPlace e p .epoch) ttl

theorem cached?_placed (e p : String) {ttl : Span} (h : 0 < ttl.nanos) :
    (placed e p ttl).cached? e p = some (.ofPlace e p .epoch) :=
  Stores.cached?_cached_ofPlace _ e p .epoch h

/-- **The first recording of a place**, in stores that hold nothing else. -/
theorem reaches_record_ofPlace (hrefl : ∀ st, others st st) {e p : String} {ttl : Span}
    (he : Text.isBlank e = false) (hp : Text.isBlank p = false)
    (httl : (Instant.epoch.add defaultCacheTtl).remaining .epoch = some ttl) :
    Work.Reaches (Stores.shared fails others) .empty (record {} (.ofPlace e p none)).run
      (.ok (.ofPlace e p .epoch)) (placed e p ttl) := by
  have hsample : (Report.ofPlace e p none).toSample .epoch = .ok (.ofPlace e p .epoch) :=
    Report.toSample_ofPlace he hp none .epoch
  have hlifetime : (Stores.empty.roster.lifetimeEnd {} (Sample.ofPlace e p .epoch).eventId
      .epoch).remaining .epoch = some ttl := httl
  exact reaches_record fails hrefl hsample hlifetime

end Tracking

/-! ## Replies

A reply goes to the store first, and its entry to the cache afterwards. -/

/-- A store of one participant. -/
def Roster.ofParticipant (p : Participant) : Roster := ⟨.empty, [p]⟩

/-- The only participant is found. -/
theorem Stores.respond_getParticipant (p : Participant) :
    respond (.ofParticipant p) (.getParticipant p.id) = (.ok (some p), .ofParticipant p) := by
  have hfind : (Roster.ofParticipant p).participant? p.id = some p :=
    List.find?_cons_of_pos (decide_eq_true rfl)
  simp only [respond, Roster.perform, hfind]

/-- The only participant replies. -/
theorem Stores.respond_updateParticipantStatus (p : Participant) (status : Rsvp) :
    respond (.ofParticipant p) (.updateParticipantStatus p.id status) =
      (.ok (), .ofParticipant { p with status := status }) := by
  have hfind : (Roster.ofParticipant p).participant? p.id = some p :=
    List.find?_cons_of_pos (decide_eq_true rfl)
  simp only [respond, Roster.perform, Roster.setParticipantStatus, hfind]
  simp only [Roster.ofParticipant, Roster.setFirst, if_true]
  rfl

theorem Participant.belongsTo_self (p : Participant) : p.belongsTo p.orgId p.eventId = true := by
  simp [belongsTo]

theorem Confirmation.reaches_cache (hrefl : ∀ st, others st st) (st : Stores)
    (c : EventCacheConfig) (entry : Confirmation) (until_ : Option Instant) {now : Instant}
    {ttl : Span}
    (httl : (until_.getD (now.add c.defaultTtl)).remaining now = some ttl) :
    Work.Reaches (Stores.shared fails others) st (entry.cache c until_).run (.ok ())
      { st with cache := st.cache.set st.clock
                  (Cache.Key.confirmation entry.orgId entry.eventId entry.participantId)
                  entry.toBytes (some ttl) } := by
  rw [run_cache]
  refine Stores.reaches_elsewhere hrefl now rfl ?_
  rw [httl]
  exact Stores.reaches_cache hrefl (.done _ _)

/-- **An undisturbed recording of a reply** puts it into the cache. -/
theorem Rsvp.reaches_record (hrefl : ∀ st, others st st) (p : Participant) (status : Rsvp) :
    ∃ st' result, Work.Reaches (Stores.shared fails others)
        { Stores.empty with roster := .ofParticipant p }
        (record {} p.orgId p.eventId p.id status).run result st' ∧
      st'.cache.get? st'.clock (Cache.Key.confirmation p.orgId p.eventId p.id) =
        some (Confirmation.mk p.orgId p.eventId p.id status .epoch).toBytes := by
  obtain ⟨ttl, httl, hpos⟩ := Tracking.exists_remaining_epoch
  have hcached := Confirmation.reaches_cache fails hrefl
    { Stores.empty with roster := .ofParticipant { p with status := status } } {}
    ⟨p.orgId, p.eventId, p.id, status, .epoch⟩ none httl
  refine ⟨{ Stores.empty with
      cache := .set .empty 0 (Cache.Key.confirmation p.orgId p.eventId p.id)
        (Confirmation.mk p.orgId p.eventId p.id status .epoch).toBytes (some ttl)
      roster := .ofParticipant { p with status := status } },
    .ok ⟨p.orgId, p.eventId, p.id, status, .epoch⟩, ?_, TimedMap.get?_set_self .empty 0 _ _ hpos⟩
  rw [run_record]
  refine Stores.reaches_roster hrefl (Stores.respond_getParticipant p) ?_
  simp only [Option.filter, p.belongsTo_self, if_true]
  refine Stores.reaches_roster hrefl rfl ?_
  refine Stores.reaches_roster hrefl (Stores.respond_updateParticipantStatus p status) ?_
  exact Stores.reaches_elsewhere hrefl Instant.epoch rfl (hcached.bind (.done _ _))

end Gathering
