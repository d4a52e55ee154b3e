import Gathering.Proofs.Cache.Lifetime
import Gathering.Proofs.Location.Agreement
import Gathering.Proofs.Rsvp.Calls

/-!
# Recordings and their copies

Two recordings put copies into the cache, and what they have in common is said of
copies of any kind. They differ in two things (`Sample.copy`, `Confirmation.copy`):

* a location is cached even if its event cannot be looked up, and then it lives for
  the default time; a reply to such an event is not recorded at all;
* a location yields to a newer one that is cached, and a reply yields to nothing.

Each recording is followed effect by effect to where its copy is made, while
others do what they like in between, but for the time that it takes: a recording
takes place at one time.
-/

namespace Gathering

/-- **The copy of a location**: the end of the event is not known either if it cannot be looked up.
It yields to a newer location. -/
def Sample.copy (s : Sample) (c : LocationConfig) (looked : Except Error (Option Event)) :
    Copy where
  key := Cache.Key.location s.eventId s.participantId
  value := s.toBytes
  ends := looked.toOption.join.bind (·.endsAt)
  fallback := c.defaultTtl
  yields bytes := Tracking.isNewer (bytes.bind Sample.ofBytes?) s

/-- **The copy of a reply**, which yields to nothing. -/
def Confirmation.copy (entry : Confirmation) (c : EventCacheConfig) (event : Option Event) :
    Copy where
  key := entry.key
  value := entry.toBytes
  ends := event.bind (·.endsAt)
  fallback := c.defaultTtl
  yields _ := false

/-! ## Recordings

The recordings are taken apart up to their copies. The calls before that are about the history and
the participants, and it is enough to know that they leave the cache alone and do not look at it. -/

variable {fails : Request → Prop} {others : Stores → Stores → Prop} {st st' : Stores}
  {turns : List (Turn Stores)} {wall : Instant} {now : Nat}

theorem Stores.Answers.leavesCache {e : Effect} {answer : e.Answer}
    (h : Answers fails st e answer st') (he : ∀ call, e ≠ .request (.cache call)) :
    Turn.LeavesCache ⟨st, e, answer, st'⟩ := by
  cases h with
  | cache | cacheFails => exact absurd rfl (he _)
  | roster | rosterFails | trail | trailFails | elsewhere => rfl

/-- What is done before does not matter, if it is no call of the cache. -/
theorem Copy.Outcome.after {x : Copy} {end_ now : Instant} {st₁ st₂ : Stores} {e : Effect}
    {answer : e.Answer} (h : x.Outcome end_ now turns st')
    (answered : Stores.Answers fails st₁ e answer st₂) (he : ∀ call, e ≠ .request (.cache call)) :
    x.Outcome end_ now (⟨st₁, e, answer, st₂⟩ :: turns) st' :=
  h.cons (answered.leavesCache he) (he _)

theorem Tracking.eq_of_runs_cached? {key : String} {r : Option Sample}
    (hcache : ∀ call, ¬ fails (.cache call))
    (run : Work.Runs (Stores.shared fails others) st (cached? key) turns r st') :
    turns = [.look st' key] ∧ r = (st'.cache.get? st'.clock key).bind Sample.ofBytes? := by
  obtain ⟨-, hr⟩ := runs_cached?_answering hcache run
  obtain ⟨answer, rfl, -, ⟨rfl, -⟩ | ⟨⟨err, rfl⟩, -⟩⟩ := runs_cached? run
  · exact ⟨rfl, hr⟩
  · have hanswered := run.answered _ (List.mem_singleton_self _)
    obtain ⟨herr, -⟩ := hanswered.of_cache (hcache _)
    cases herr

/-- **What becomes of a location** that is to be cached.

The wall clock is asked twice in a recording, first for the time of the sample and then for what
is left of its lifetime; both answers are the same, since the recording takes place at one
time. -/
theorem Tracking.copied_of_runs {s : Sample} {until_ : Instant} {r : Except Error Unit}
    (hcache : ∀ call, ¬ fails (.cache call)) (c : LocationConfig)
    (looked : Except Error (Option Event))
    (run : Work.Runs (Stores.shared fails others) st (cacheLatest s until_).run turns r st')
    (hat : ∀ turn ∈ turns, Stores.IsAt wall now turn) :
    (s.copy c looked).Outcome until_ (wall.elapsed now) turns st' := by
  rw [run_cacheLatest] at run
  obtain ⟨st₁, t, st₂, rest, rfl, -, answered, hrest⟩ := Work.runs_call_iff.mp run
  obtain rfl := answered.eq_of_isElsewhere rfl
  obtain ⟨⟨-, htime⟩, -⟩ := List.forall_mem_cons.mp hat
  obtain rfl : t = wall.elapsed now := htime
  suffices (s.copy c looked).Outcome until_ (wall.elapsed now) rest st' from
    this.after answered (by simp)
  cases hremaining : until_.remaining (wall.elapsed now) with
  | none =>
    rw [hremaining] at hrest
    cases hrest
    exact .late hremaining (by simp)
  | some ttl =>
    rw [hremaining] at hrest
    obtain ⟨first, last, cached, st₃, rfl, hread, hlast⟩ := Work.runs_bind_iff.mp hrest
    obtain ⟨rfl, rfl⟩ := eq_of_runs_cached? hcache hread
    have hleft : (Turn.look st₃ (Cache.Key.location s.eventId s.participantId)).LeavesCache := rfl
    cases hnewer : isNewer ((st₃.cache.get? st₃.clock _).bind Sample.ofBytes?) s with
    | true =>
      rw [if_pos hnewer] at hlast
      cases hlast
      exact .outdone hremaining (Copy.isOutdone_look_iff.mpr hnewer)
        (List.forall_mem_singleton.mpr hleft)
    | false =>
      rw [if_neg (Bool.eq_false_iff.mp hnewer)] at hlast
      cases hlast with
      | ask _ answered' hdone =>
        cases hdone
        obtain ⟨rfl, rfl⟩ := answered'.of_cache (hcache _)
        refine .written hremaining ?_ (List.forall_mem_singleton.mpr hleft) rfl rfl
        exact Copy.isOutdone_look_iff.not.mpr (Bool.eq_false_iff.mp hnewer)

/-- **What becomes of a reply** that is to be cached. -/
theorem Confirmation.copied_of_runs {entry : Confirmation} {c : EventCacheConfig}
    {event : Option Event} {r : Except Error Unit} (hcache : ∀ call, ¬ fails (.cache call))
    (run : Work.Runs (Stores.shared fails others) st
      (entry.cache c (event.bind (·.endsAt))).run turns r st')
    (hat : ∀ turn ∈ turns, Stores.IsAt wall now turn) :
    (entry.copy c event).Outcome (Rsvp.lifetimeEnd c event (wall.elapsed now)) (wall.elapsed now)
      turns st' := by
  rw [run_cache] at run
  obtain ⟨st₁, t, st₂, rest, rfl, -, answered, hrest⟩ := Work.runs_call_iff.mp run
  obtain rfl := answered.eq_of_isElsewhere rfl
  obtain ⟨⟨-, htime⟩, -⟩ := List.forall_mem_cons.mp hat
  obtain rfl : t = wall.elapsed now := htime
  suffices (entry.copy c event).Outcome _ (wall.elapsed now) rest st' from
    this.after answered (by simp)
  unfold Rsvp.lifetimeEnd
  cases hremaining : ((event.bind (·.endsAt)).getD ((wall.elapsed now).add c.defaultTtl)).remaining
    (wall.elapsed now) with
  | none =>
    rw [hremaining] at hrest
    cases hrest
    exact .late hremaining (by simp)
  | some ttl =>
    rw [hremaining] at hrest
    cases hrest with
    | ask _ answered' hdone =>
      cases hdone
      obtain ⟨rfl, rfl⟩ := answered'.of_cache (hcache _)
      have hunseen : ¬ (entry.copy c event).IsOutdone [] := by simp [Copy.IsOutdone]
      exact .written hremaining hunseen (by simp) (List.nil_append _).symm rfl

/-- **A recording of a location** is refused and leaves the cache as it is, or it makes the copy of
its sample, for the end of the event that was looked up. -/
theorem Tracking.isMade_of_runs {c : LocationConfig} {r : Report} {result : Except Error Sample}
    (hwall : wall.isLeap = false) (hcache : ∀ call, ¬ fails (.cache call))
    (run : Work.Runs (Stores.shared fails others) st (record c r).run turns result st')
    (hat : ∀ turn ∈ turns, Stores.IsAt wall now turn) :
    (∃ err, result = .error err ∧ ∀ turn ∈ turns, turn.LeavesCache) ∨
      ∃ s looked, result = .ok s ∧
        ⟨.request (.roster (.getEvent s.eventId)), looked⟩ ∈ turns.map (·.deed) ∧
        (s.copy c looked).IsMade wall now turns st' := by
  rw [run_record] at run
  obtain ⟨st₁, t, st₂, rest, rfl, -, answered, hrest⟩ := Work.runs_call_iff.mp run
  obtain rfl := answered.eq_of_isElsewhere rfl
  obtain ⟨⟨-, htime⟩, hat'⟩ := List.forall_mem_cons.mp hat
  obtain rfl : t = wall.elapsed now := htime
  cases hsample : r.toSample (wall.elapsed now) with
  | error err =>
    rw [hsample] at hrest
    cases hrest
    exact .inl ⟨err, rfl, List.forall_mem_singleton.mpr rfl⟩
  | ok s =>
    rw [hsample] at hrest
    obtain ⟨st₃, appended, st₄, rest, rfl, -, answered', hrest⟩ := Work.runs_call_iff.mp hrest
    have hleft := answered'.leavesCache (by simp)
    cases appended with
    | error err =>
      cases hrest
      exact .inl ⟨err, rfl, List.forall_mem_cons.mpr ⟨rfl, List.forall_mem_singleton.mpr hleft⟩⟩
    | ok _ =>
      obtain ⟨second, rest, until_, st₅, rfl, hlifetime, hrest⟩ := Work.runs_bind_iff.mp hrest
      obtain ⟨third, last, ended, st₆, rfl, hcaching, hrest⟩ := Work.runs_bind_iff.mp hrest
      cases hrest
      rw [lifetimeEnd_eq] at hlifetime
      obtain ⟨st₇, looked, st₈, rest, rfl, -, answered'', hdone⟩ := Work.runs_call_iff.mp hlifetime
      cases hdone
      refine .inr ⟨s, looked, rfl, by simp [Turn.deed], ?_⟩
      -- what comes before the caching does not call the cache
      have houtcome := copied_of_runs hcache c looked hcaching fun turn hturn =>
        hat turn (by simp [hturn])
      rw [List.append_nil] at hat ⊢
      exact Copy.Outcome.isMade hwall hat (((houtcome.after answered'' (by simp)).after answered'
        (by simp)).after answered (by simp))

/-- **A recording of a reply** fails and leaves the cache as it is, or it makes the copy of its
entry, for the end of the event that was looked up. -/
theorem Rsvp.isMade_of_runs {c : EventCacheConfig} {orgId eventId participantId : String}
    {status : Rsvp} {result : Except Error Confirmation} (hwall : wall.isLeap = false)
    (hcache : ∀ call, ¬ fails (.cache call))
    (run : Work.Runs (Stores.shared fails others) st
      (record c orgId eventId participantId status).run turns result st')
    (hat : ∀ turn ∈ turns, Stores.IsAt wall now turn) :
    (∃ err, result = .error err ∧ ∀ turn ∈ turns, turn.LeavesCache) ∨
      ∃ entry event, result = .ok entry ∧
        ⟨.request (.roster (.getEvent eventId)), .ok event⟩ ∈ turns.map (·.deed) ∧
        (entry.copy c event).IsMade wall now turns st' := by
  rw [run_record] at run
  obtain ⟨st₁, someone?, st₂, rest, rfl, -, answered, hrest⟩ := Work.runs_call_iff.mp run
  have hleft := answered.leavesCache (by simp)
  cases someone? with
  | error err =>
    cases hrest
    exact .inl ⟨err, rfl, List.forall_mem_singleton.mpr hleft⟩
  | ok someone =>
    dsimp only at hrest
    cases hsomeone : someone.filter (·.belongsTo orgId eventId) with
    | none =>
      rw [hsomeone] at hrest
      cases hrest
      exact .inl ⟨_, rfl, List.forall_mem_singleton.mpr hleft⟩
    | some q =>
      rw [hsomeone] at hrest
      -- for a reply a failed look-up of the event is the end
      obtain ⟨st₃, event?, st₄, rest, rfl, -, answered', hrest⟩ := Work.runs_call_iff.mp hrest
      have hleft' := answered'.leavesCache (by simp)
      cases event? with
      | error err =>
        cases hrest
        exact .inl ⟨err, rfl, by simp [hleft, hleft']⟩
      | ok event =>
        obtain ⟨st₅, updated, st₆, rest, rfl, -, answered'', hrest⟩ := Work.runs_call_iff.mp hrest
        have hleft'' := answered''.leavesCache (by simp)
        cases updated with
        | error err =>
          cases hrest
          exact .inl ⟨err, rfl, by simp [hleft, hleft', hleft'']⟩
        | ok _ =>
          obtain ⟨st₇, t, st₈, rest, rfl, -, told, hrest⟩ := Work.runs_call_iff.mp hrest
          obtain ⟨first, last, ended, st₉, rfl, hcaching, hrest⟩ := Work.runs_bind_iff.mp hrest
          cases hrest
          refine .inr ⟨_, event, rfl, by simp [Turn.deed], ?_⟩
          -- what comes before the caching does not call the cache
          have houtcome := Confirmation.copied_of_runs hcache hcaching fun turn hturn =>
            hat turn (by simp [hturn])
          rw [List.append_nil] at hat ⊢
          exact Copy.Outcome.isMade hwall hat ((((houtcome.after told (by simp)).after answered''
            (by simp)).after answered' (by simp)).after answered (by simp))

/-- **What is copied to the cache lives as long as the event.** In a cache that answers, and while
the wall clock and the clock of the cache run together, a recording of a location or of a reply
that takes place at one time has failed without touching the cache, or it has made its copy: with
the end of the event that it has looked up, or with the default time if there is none.

The calls of the other stores may fail in any way. For a location a failed look-up of the event is
no failure of the recording, and for a reply it is. -/
theorem Copy.isMade_of_recording (hwall : wall.isLeap = false)
    (hcache : ∀ call, ¬ fails (.cache call)) :
    (∀ {c r st turns result st'},
      Work.Runs (Stores.shared fails others) st (Tracking.record c r).run turns result st' →
      (∀ turn ∈ turns, Stores.IsAt wall now turn) →
        (∃ err, result = .error err ∧ ∀ turn ∈ turns, turn.LeavesCache) ∨
        ∃ s looked, result = .ok s ∧
          ⟨.request (.roster (.getEvent s.eventId)), looked⟩ ∈ turns.map (·.deed) ∧
          (s.copy c looked).IsMade wall now turns st') ∧
    (∀ {c orgId eventId participantId status st turns result st'},
      Work.Runs (Stores.shared fails others) st
        (Rsvp.record c orgId eventId participantId status).run turns result st' →
      (∀ turn ∈ turns, Stores.IsAt wall now turn) →
        (∃ err, result = .error err ∧ ∀ turn ∈ turns, turn.LeavesCache) ∨
        ∃ entry event, result = .ok entry ∧
          ⟨.request (.roster (.getEvent eventId)), .ok event⟩ ∈ turns.map (·.deed) ∧
          (entry.copy c event).IsMade wall now turns st') :=
  ⟨Tracking.isMade_of_runs hwall hcache, Rsvp.isMade_of_runs hwall hcache⟩

/-! ## Undisturbed recordings

The turns of a recording that nobody disturbs, one by one: of a location, and of a reply of the
only participant. Each of them takes place at the time that the stores show, so that what is said
of recordings at one time can be applied. -/

theorem Tracking.runs_look (fails : Request → Prop) (hrefl : ∀ st, others st st) (st : Stores)
    (key : String) :
    Work.Runs (Stores.shared fails others) st (cached? key) [.look st key]
      ((st.cache.get? st.clock key).bind Sample.ofBytes?) st := by
  have hanswered : Stores.Answers fails st (.request (.cache (.get key))) _ st := .cache (.get key)
  generalize hfound : (st.cache.perform st.clock (.get key)).1 = found at hanswered
  refine Work.runs_call_iff.mpr ⟨st, .ok found, st, [], ?_, hrefl st, hanswered, ?_⟩
  · rw [← hfound]
    rfl
  · rw [show st.cache.get? st.clock key = found from hfound]
    cases found <;> exact .done _ _

/-- **The turns in which a location is recorded and cached**, while the wall clock shows some time
and nobody comes in between. -/
def Tracking.caching (st : Stores) (s : Sample) (t : Instant) (ttl : Span) : List (Turn Stores) :=
  [⟨st, .request .now, t, st⟩,
    ⟨st, .request (.trail (.append s)), .ok (), st.appended s⟩,
    ⟨st.appended s, .request (.roster (.getEvent s.eventId)), .ok (st.roster.event? s.eventId),
      st.appended s⟩,
    ⟨st.appended s, .request .now, t, st.appended s⟩,
    .look (st.appended s) (Cache.Key.location s.eventId s.participantId),
    .write (st.appended s) (Cache.Key.location s.eventId s.participantId) s.toBytes ttl]

/-- They are the turns of a recording, if there is time left and no newer location is cached. -/
theorem Tracking.runs_caching (fails : Request → Prop) (hrefl : ∀ st, others st st)
    {c : LocationConfig} {r : Report} {s : Sample} {t : Instant} {ttl : Span}
    (hsample : r.toSample t = .ok s)
    (httl : (endOf c t (.ok (st.roster.event? s.eventId))).remaining t = some ttl)
    (hnewer : isNewer (st.cached? s.eventId s.participantId) s = false) :
    Work.Runs (Stores.shared fails others) st (record c r).run (caching st s t ttl) (.ok s)
      ((st.appended s).cached s ttl) := by
  have hclock (st : Stores) : Stores.Answers fails st (.request .now) t st :=
    @Stores.Answers.elsewhere fails st (.request .now) rfl t
  replace hnewer : isNewer (((st.appended s).cache.get? (st.appended s).clock
      (Cache.Key.location s.eventId s.participantId)).bind Sample.ofBytes?) s = false := hnewer
  have hcaching : Work.Runs (Stores.shared fails others) (st.appended s)
      (cacheLatest s (endOf c t (.ok (st.roster.event? s.eventId)))).run
      ((caching st s t ttl).drop 3) (.ok ()) ((st.appended s).cached s ttl) := by
    rw [run_cacheLatest]
    refine Work.runs_call_iff.mpr ⟨_, t, _, _, rfl, hrefl _, hclock _, ?_⟩
    rw [httl]
    refine Work.runs_bind_iff.mpr ⟨_, _, _, _, (List.singleton_append).symm,
      runs_look fails hrefl _ _, ?_⟩
    rw [if_neg (Bool.eq_false_iff.mp hnewer)]
    exact .ask (hrefl _) (.cache (setCall s ttl)) (.done _ _)
  rw [run_record]
  refine Work.runs_call_iff.mpr ⟨st, t, st, _, rfl, hrefl _, hclock _, ?_⟩
  rw [hsample]
  refine Work.runs_call_iff.mpr ⟨st, _, _, _, rfl, hrefl _, .trail _, ?_⟩
  rw [lifetimeEnd_eq]
  refine Work.runs_call_iff.mpr ⟨_, _, _, _, rfl, hrefl _, .roster _, ?_⟩
  exact Work.runs_bind_iff.mpr ⟨_, [], _, _, (List.append_nil _).symm, hcaching, .done _ _⟩

/-- They take place at the time of the stores. -/
theorem Tracking.isAt_caching (wall : Instant) (st : Stores) (s : Sample) (ttl : Span) :
    ∀ turn ∈ caching st s (wall.elapsed st.clock) ttl, Stores.IsAt wall st.clock turn := by
  simp only [caching, List.forall_mem_cons]
  exact ⟨⟨rfl, rfl⟩, ⟨rfl, trivial⟩, ⟨rfl, trivial⟩, ⟨rfl, rfl⟩, ⟨rfl, trivial⟩, ⟨rfl, trivial⟩,
    List.forall_mem_nil _⟩

/-- The only lookup of an event is answered by the store. -/
theorem Tracking.eq_of_mem_caching {s : Sample} {t : Instant} {ttl : Span}
    {looked : Except Error (Option Event)}
    (h : ⟨.request (.roster (.getEvent s.eventId)), looked⟩ ∈ (caching st s t ttl).map (·.deed)) :
    looked = .ok (st.roster.event? s.eventId) := by
  simpa [caching, Turn.deed] using h

/-- A location that no newer one is cached for is not outdone. -/
theorem Tracking.not_isOutdone_caching {s : Sample} {t : Instant} {ttl : Span} (c : LocationConfig)
    (looked : Except Error (Option Event))
    (hnewer : isNewer (st.cached? s.eventId s.participantId) s = false) :
    ¬ (s.copy c looked).IsOutdone (caching st s t ttl) := by
  have hlook : ¬ (s.copy c looked).IsOutdone [.look (st.appended s) _] :=
    Copy.isOutdone_look_iff.not.mpr (Bool.eq_false_iff.mp hnewer)
  unfold caching
  iterate 4 rw [Copy.isOutdone_cons_iff (by simp)]
  exact Copy.isOutdone_append_write_iff.not.mpr hlook

/-- Stores of one participant. -/
def Stores.ofParticipant (p : Participant) : Stores := { empty with roster := .ofParticipant p }

/-- The turns in which the only participant replies to an unknown event and the reply is cached. -/
def Rsvp.caching (p : Participant) (entry : Confirmation) (ttl : Span) : List (Turn Stores) :=
  [⟨.ofParticipant p, .request (.roster (.getParticipant p.id)), .ok (some p), .ofParticipant p⟩,
    ⟨.ofParticipant p, .request (.roster (.getEvent p.eventId)), .ok none, .ofParticipant p⟩,
    ⟨.ofParticipant p, .request (.roster (.updateParticipantStatus p.id entry.status)), .ok (),
      .ofParticipant { p with status := entry.status }⟩,
    ⟨.ofParticipant { p with status := entry.status }, .request .now, entry.updatedAt,
      .ofParticipant { p with status := entry.status }⟩,
    ⟨.ofParticipant { p with status := entry.status }, .request .now, entry.updatedAt,
      .ofParticipant { p with status := entry.status }⟩,
    .write (.ofParticipant { p with status := entry.status }) entry.key entry.toBytes ttl]

/-- They are the turns of a recording, if there is time left. -/
theorem Rsvp.runs_caching (fails : Request → Prop) (hrefl : ∀ st, others st st)
    (c : EventCacheConfig) (p : Participant) (status : Rsvp) {t : Instant} {ttl : Span}
    (httl : (lifetimeEnd c none t).remaining t = some ttl) :
    Work.Runs (Stores.shared fails others) (.ofParticipant p)
      (record c p.orgId p.eventId p.id status).run
      (caching p ⟨p.orgId, p.eventId, p.id, status, t⟩ ttl)
      (.ok ⟨p.orgId, p.eventId, p.id, status, t⟩)
      (Turn.write (.ofParticipant { p with status := status })
        (Confirmation.mk p.orgId p.eventId p.id status t).key
        (Confirmation.mk p.orgId p.eventId p.id status t).toBytes ttl).after := by
  have hclock (st : Stores) : Stores.Answers fails st (.request .now) t st :=
    @Stores.Answers.elsewhere fails st (.request .now) rfl t
  have hfound : Stores.Answers fails (.ofParticipant p) (.request (.roster (.getParticipant p.id)))
      _ _ := .roster _
  rw [show (Stores.ofParticipant p).roster = .ofParticipant p from rfl,
    Stores.respond_getParticipant p] at hfound
  have hupdated : Stores.Answers fails (.ofParticipant p)
      (.request (.roster (.updateParticipantStatus p.id status))) _ _ := .roster _
  rw [show (Stores.ofParticipant p).roster = .ofParticipant p from rfl,
    Stores.respond_updateParticipantStatus p status] at hupdated
  rw [run_record]
  refine Work.runs_call_iff.mpr ⟨_, _, _, _, rfl, hrefl _, hfound, ?_⟩
  simp only [Option.filter, p.belongsTo_self, if_true]
  refine Work.runs_call_iff.mpr ⟨_, _, _, _, rfl, hrefl _, .roster _, ?_⟩
  refine Work.runs_call_iff.mpr ⟨_, _, _, _, rfl, hrefl _, hupdated, ?_⟩
  refine Work.runs_call_iff.mpr ⟨_, t, _, _, rfl, hrefl _, hclock _, ?_⟩
  refine Work.runs_bind_iff.mpr ⟨_, [], .ok (), _, (List.append_nil _).symm, ?_, .done _ _⟩
  rw [Confirmation.run_cache]
  refine Work.runs_call_iff.mpr ⟨_, t, _, _, rfl, hrefl _, hclock _, ?_⟩
  unfold lifetimeEnd at httl
  rw [httl]
  exact .ask (hrefl _) (.cache (.set _ _ _)) (.done _ _)

/-- They take place at the epoch, if that is what the wall clock shows. -/
theorem Rsvp.isAt_caching (p : Participant) (entry : Confirmation) (ttl : Span)
    (hnow : entry.updatedAt = wall.elapsed 0) :
    ∀ turn ∈ caching p entry ttl, Stores.IsAt wall 0 turn := by
  simp only [caching, List.forall_mem_cons]
  exact ⟨⟨rfl, trivial⟩, ⟨rfl, trivial⟩, ⟨rfl, trivial⟩, ⟨rfl, hnow⟩, ⟨rfl, hnow⟩, ⟨rfl, trivial⟩,
    List.forall_mem_nil _⟩

/-- The only lookup of an event has found none. -/
theorem Rsvp.eq_of_mem_caching {p : Participant} {entry : Confirmation} {ttl : Span}
    {event : Option Event}
    (h : ⟨.request (.roster (.getEvent p.eventId)), .ok event⟩ ∈
      (caching p entry ttl).map (·.deed)) : event = none := by
  simpa [caching, Turn.deed] using h

/-- A reply is never outdone. -/
theorem Confirmation.not_isOutdone (entry : Confirmation) (c : EventCacheConfig)
    (event : Option Event) : ¬ (entry.copy c event).IsOutdone turns := by
  rintro ⟨_, -, hyields⟩
  cases hyields

/-- **The first location and the first reply live for the default time**, from the epoch on. -/
theorem Copy.lapsesAt_of_first :
    (∃ turns st', Work.Runs (Stores.shared (fun _ => False) Eq) .empty
        (Tracking.record {} (.ofPlace "e" "p" none)).run turns (.ok (.ofPlace "e" "p" .epoch)) st' ∧
      (∀ turn ∈ turns, Stores.IsAt .epoch 0 turn) ∧
      st'.LapsesAt .epoch (Cache.Key.location "e" "p") (Sample.ofPlace "e" "p" .epoch).toBytes
        (Instant.epoch.add defaultCacheTtl)) ∧
    ∃ (p : Participant) (turns : List (Turn Stores)) (entry : Confirmation) (st' : Stores),
      Work.Runs (Stores.shared (fun _ => False) Eq) (.ofParticipant p)
        (Rsvp.record {} p.orgId p.eventId p.id .confirmed).run turns (.ok entry) st' ∧
      (∀ turn ∈ turns, Stores.IsAt .epoch 0 turn) ∧
      st'.LapsesAt .epoch entry.key entry.toBytes (Instant.epoch.add defaultCacheTtl) := by
  have hclock : Instant.epoch.isLeap = false := rfl
  have hcache : ∀ call, ¬ (fun _ => False : Request → Prop) (.cache call) := fun _ h => h
  have hnow : Instant.epoch.elapsed 0 = .epoch := by decide +kernel
  have hahead : Instant.epoch < Instant.epoch.add defaultCacheTtl := by decide +kernel
  obtain ⟨ttl, httl, -⟩ := Tracking.exists_remaining_epoch
  constructor
  · have hsample : (Report.ofPlace "e" "p" none).toSample .epoch = .ok (.ofPlace "e" "p" .epoch) :=
      Report.toSample_ofPlace (by decide +kernel) (by decide +kernel) none .epoch
    have hlived : (Tracking.endOf {} .epoch (.ok (Stores.empty.roster.event? "e"))).remaining
        .epoch = some ttl := httl
    have run := Tracking.runs_caching (fun _ => False) Eq.refl hsample hlived rfl
    have hat := Tracking.isAt_caching .epoch .empty (.ofPlace "e" "p" .epoch) ttl
    rw [show Stores.empty.clock = 0 from rfl, hnow] at hat
    refine ⟨_, _, run, hat, ?_⟩
    -- the recording has made its copy, and nothing was cached that the copy could yield to
    rcases (isMade_of_recording hclock hcache).1 run hat with
      ⟨err, herr, -⟩ | ⟨s, looked, hs, hlooked, hmade⟩
    · cases herr
    · cases hs
      obtain rfl := Tracking.eq_of_mem_caching hlooked
      have hlapses := (hmade.timely fun _ h => by cases h).lapses
      rw [hnow] at hlapses
      exact hlapses hahead (Tracking.not_isOutdone_caching {} _ rfl)
  · have hlived : (Rsvp.lifetimeEnd {} none .epoch).remaining .epoch = some ttl := httl
    have run := Rsvp.runs_caching (fun _ => False) Eq.refl {} ⟨"p", "e", "o", "", "", .pending⟩
      .confirmed hlived
    have hat := Rsvp.isAt_caching ⟨"p", "e", "o", "", "", .pending⟩
      ⟨"o", "e", "p", .confirmed, .epoch⟩ ttl hnow.symm
    refine ⟨_, _, _, _, run, hat, ?_⟩
    rcases (isMade_of_recording hclock hcache).2 run hat with
      ⟨err, herr, -⟩ | ⟨entry, event, hentry, hlooked, hmade⟩
    · cases herr
    · cases hentry
      obtain rfl := Rsvp.eq_of_mem_caching hlooked
      have hlapses := (hmade.timely fun _ h => by cases h).lapses
      rw [hnow] at hlapses
      exact hlapses hahead (Confirmation.not_isOutdone _ _ _)

/-! ## Ends in a leap second

The wall clock counts no leap seconds, so the minute that has one is over for the clock a second
earlier than it was reckoned to be. -/

/-- An instant in the leap second after the first minute. -/
def Instant.leaping : Instant := ⟨59, 1250000000, by decide, by decide, by decide⟩

/-- An event that ends then. -/
def Event.leaping : Event := ⟨"e", "o", "", .scheduled, .epoch, some .leaping, none⟩

/-- Stores of this event. -/
def Stores.ofLeaping : Stores := { empty with roster := Roster.empty.insertEvent .leaping }

/-- **A copy outlives an event that ends in a leap second**: 60.1 seconds after the epoch the wall
clock shows the second after it, and the location can still be read.

What was left at the epoch was reckoned to be 60.25 seconds, as if the leap second were a part of
the second after it. -/
theorem Copy.not_isTimely_of_leaping :
    ∃ (turns : List (Turn Stores)) (st' : Stores),
      Work.Runs (Stores.shared (fun _ => False) Eq) .ofLeaping
        (Tracking.record {} (.ofPlace "e" "p" none)).run turns (.ok (.ofPlace "e" "p" .epoch)) st' ∧
      (∀ turn ∈ turns, Stores.IsAt .epoch 0 turn) ∧
      ⟨.request (.roster (.getEvent "e")), .ok (some .leaping)⟩ ∈ turns.map (·.deed) ∧
      .leaping ≤ Instant.epoch.elapsed 60100000000 ∧
      st'.cache.get? 60100000000 (Cache.Key.location "e" "p") =
        some (Sample.ofPlace "e" "p" .epoch).toBytes ∧
      ¬ ((Sample.ofPlace "e" "p" .epoch).copy {} (.ok (some .leaping))).IsTimely .epoch 0 turns
        st' := by
  have hnow : Instant.epoch.elapsed 0 = .epoch := by decide +kernel
  have hlate : .leaping ≤ Instant.epoch.elapsed 60100000000 := by decide +kernel
  have hsample : (Report.ofPlace "e" "p" none).toSample .epoch = .ok (.ofPlace "e" "p" .epoch) :=
    Report.toSample_ofPlace (by decide +kernel) (by decide +kernel) none .epoch
  have hfound : Stores.ofLeaping.roster.event? "e" = some .leaping :=
    (Keyed.find?_insert ..).trans (if_pos rfl)
  have hlived : (Tracking.endOf {} .epoch (.ok (Stores.ofLeaping.roster.event? "e"))).remaining
      .epoch = some (.saturate 60250000000) := by
    rw [hfound]
    decide +kernel
  have run := Tracking.runs_caching (fun _ => False) Eq.refl hsample hlived rfl
  have hat := Tracking.isAt_caching .epoch .ofLeaping (.ofPlace "e" "p" .epoch)
    (.saturate 60250000000)
  rw [show Stores.ofLeaping.clock = 0 from rfl, hnow] at hat
  -- the wall clock is past the leap second, and the entry has still some time to live
  have hget := Cache.TimedMap.get?_set_of_lt Stores.ofLeaping.cache
    (Cache.Key.location "e" "p") (Sample.ofPlace "e" "p" .epoch).toBytes
    (show 60100000000 < 0 + (Span.saturate 60250000000).nanos by decide)
  refine ⟨_, _, run, hat, ?_, hlate, hget, fun htimely => ?_⟩
  · rw [← hfound]
    simp [Tracking.caching, Turn.deed, Sample.ofPlace]
  · have hlapses := htimely.lapses
    rw [hnow, show ((Sample.ofPlace "e" "p" .epoch).copy {} (.ok (some .leaping))).ending .epoch =
      .leaping from rfl] at hlapses
    have hgone := hlapses (by decide +kernel) (Tracking.not_isOutdone_caching {} _ rfl) _
      60100000000 _ (.waited .nil (Nat.zero_le _)) (fun _ h => by cases h)
    rw [if_neg (Instant.not_lt.mpr hlate)] at hgone
    cases hget.symm.trans hgone

end Gathering
