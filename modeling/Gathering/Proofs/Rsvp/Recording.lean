import Gathering.Proofs.Location.Agreement
import Gathering.Proofs.Rsvp.Halfway
import Gathering.Proofs.Snapshot.Confirmation
import Gathering.Proofs.Store.Failing
import Mathlib.Data.List.Nodup

/-!
# Recording a reply, all or nothing

A reply is recorded in four calls, each of which may fail. The first three must not: if
a look-up fails, the participant does not belong to the event or the reply cannot be
stored, then the recording ends in an error and nothing has happened. The fourth writes
the entry to the cache, and its failure is passed over, because by then the reply is
stored. So a recording ends in one of four ways (`Rsvp.Outcome`), and what it has done
to the stores can be told from its result (`Rsvp.record_all_or_nothing`).

The store finds the first participant of an identifier, and that is where it stores the
reply. It is the only one because adding a participant removes an older one of the same
identifier, and no call changes an identifier (`Roster.IsUnique.steps`).
-/

namespace Gathering

open Stores (failing Waits)

/-! ## One participant among others

The store goes through the participants until it meets the identifier, both when it looks somebody
up and when it stores a reply. So the participant that was found splits the list in two, and the
reply is stored at the split. Whether the participants behind it may have the same identifier is a
matter of how the list came about, and adding a participant filters them out. -/

namespace Roster

variable {p : String} {q : Participant}

/-- A reply is stored at the first participant of the identifier. -/
theorem setFirst_append (status : Rsvp) {before : List Participant} (after : List Participant)
    (hbefore : ∀ x ∈ before, x.id ≠ p) (hid : q.id = p) :
    setFirst p status (before ++ q :: after) = before ++ { q with status := status } :: after := by
  induction before with
  | nil =>
    rw [List.nil_append, setFirst, if_pos hid]
    rfl
  | cons x rest ih =>
    obtain ⟨hx, hrest⟩ := List.forall_mem_cons.mp hbefore
    rw [List.cons_append, setFirst, if_neg hx, ih hrest]
    rfl

/-- **Where a reply is stored**: at the participant who is found, and nowhere else.

That the participants before it have other identifiers comes from the look-up, which would have
stopped at them; about those after it nothing is said here. -/
theorem exists_setFirst (status : Rsvp) {r : Roster} (h : r.participant? p = some q) :
    ∃ before after, r.participants = before ++ q :: after ∧
      setFirst p status r.participants = before ++ { q with status := status } :: after := by
  obtain ⟨hid, before, after, hsplit, hbefore⟩ := List.find?_eq_some_iff_append.mp h
  refine ⟨before, after, hsplit, ?_⟩
  rw [hsplit]
  exact setFirst_append status after (fun x hx => by simpa using hbefore x hx)
    (of_decide_eq_true hid)

/-- **Every participant has an identifier of its own.** -/
def IsUnique (r : Roster) : Prop := (r.participants.map (·.id)).Nodup

/-- Where identifiers are unique, nobody else has that of a participant. -/
theorem IsUnique.ne_of_split {r : Roster} (h : r.IsUnique) {before after : List Participant}
    (hsplit : r.participants = before ++ q :: after) : ∀ x ∈ before ++ after, x.id ≠ q.id := by
  unfold IsUnique at h
  rw [hsplit, List.map_append, List.map_cons, List.nodup_middle, ← List.map_append] at h
  intro x hx hid
  exact (List.nodup_cons.mp h).1 (hid ▸ List.mem_map_of_mem hx)

theorem map_id_setFirst (p : String) (status : Rsvp) (participants : List Participant) :
    (setFirst p status participants).map (·.id) = participants.map (·.id) := by
  induction participants with
  | nil => rfl
  | cons x rest ih =>
    unfold setFirst
    split
    · rfl
    · exact congrArg (x.id :: ·) ih

/-- **Identifiers stay unique when a participant is added**, in place of an older one. -/
theorem IsUnique.insertParticipant {r : Roster} (h : r.IsUnique) (q : Participant) :
    (r.insertParticipant q).IsUnique := by
  show ((r.participants.filter (·.id != q.id) ++ [q]).map (·.id)).Nodup
  rw [List.map_append, List.map_singleton, List.nodup_append_comm, List.singleton_append,
    List.nodup_cons]
  refine ⟨fun hmem => ?_, List.Nodup.sublist (List.Sublist.map _ List.filter_sublist) h⟩
  obtain ⟨x, hx, hid⟩ := List.mem_map.mp hmem
  exact bne_iff_ne.mp (List.mem_filter.mp hx).2 hid

/-- **Identifiers stay unique in every call.** -/
theorem IsUnique.respond {r : Roster} (h : r.IsUnique) (call : Call) :
    (Stores.respond r call).2.IsUnique := by
  cases call with
  | getEvent | listParticipants | getParticipant => exact h
  | updateEventStatus eventId status =>
    simp only [Stores.respond, perform, setEventStatus]
    cases r.event? eventId <;> exact h
  | updateParticipantStatus p status =>
    simp only [Stores.respond, perform, setParticipantStatus]
    cases r.participant? p with
    | none => exact h
    | some _ =>
      show ((setFirst p status r.participants).map (·.id)).Nodup
      rw [map_id_setFirst]
      exact h

theorem respond_update (r : Roster) (status : Rsvp) (h : r.participant? p = some q) :
    Stores.respond r (.updateParticipantStatus p status) =
      (.ok (), { r with participants := setFirst p status r.participants }) := by
  simp only [Stores.respond, perform, setParticipantStatus, h, Except.map]

end Roster

namespace Stores

/-- **Others enrol participants**, and do what they like with everything else. -/
def Enrols (st st' : Stores) : Prop :=
  st'.roster.participants = st.roster.participants ∨
    ∃ q, st'.roster = st.roster.insertParticipant q

end Stores

/-- Identifiers stay unique whatever a program asks for. -/
theorem Roster.IsUnique.answers {fails : Request → Prop} {st st' : Stores} {e : Effect}
    {answer : e.Answer} (h : st.roster.IsUnique) (hanswers : Stores.Answers fails st e answer st') :
    st'.roster.IsUnique := by
  cases hanswers with
  | cache | cacheFails | rosterFails | trail | trailFails | elsewhere => exact h
  | roster call => exact h.respond call

/-- Identifiers stay unique while others enrol participants. -/
theorem Roster.IsUnique.enrols {st st' : Stores} (h : st.roster.IsUnique)
    (hothers : st.Enrols st') : st'.roster.IsUnique := by
  obtain hsame | ⟨q, hq⟩ := hothers
  · unfold IsUnique
    rw [hsame]
    exact h
  · rw [hq]
    exact h.insertParticipant q

/-- **Identifiers stay unique while programs run** and others enrol participants.

The programs may be any programs: what they can do to the participants is what a call of the store
can do, and that was looked at call by call in `Roster.IsUnique.respond`. -/
theorem Roster.IsUnique.steps {fails : Request → Prop} {calls : Work Unit → Prop}
    {pool pool' : Pool Stores} (h : pool.state.roster.IsUnique)
    (hsteps : Pool.Steps (Stores.shared fails Stores.Enrols) calls pool pool') :
    pool'.state.roster.IsUnique := by
  induction hsteps with
  | refl => exact h
  | tail _ hstep ih =>
    cases hstep with
    | starts => exact ih
    | asks hanswers => exact Roster.IsUnique.answers ih hanswers
    | meanwhile hothers => exact Roster.IsUnique.enrols ih hothers

namespace Stores.Waits

variable {st st' : Stores}

theorem roster (h : st.Waits st') : st'.roster = st.roster := by
  obtain ⟨_, -, rfl⟩ := h
  rfl

theorem trail (h : st.Waits st') : st'.trail = st.trail := by
  obtain ⟨_, -, rfl⟩ := h
  rfl

theorem cache (h : st.Waits st') : st'.cache = st.cache := by
  obtain ⟨_, -, rfl⟩ := h
  rfl

end Stores.Waits

theorem Instant.exists_remaining {until_ now : Instant} (h : 0 < until_.since now) :
    ∃ ttl, until_.remaining now = some ttl := by
  unfold remaining
  dsimp only
  rw [if_neg (by omega)]
  exact ⟨_, rfl⟩

namespace Rsvp

variable {refused : Request → Prop} {c : EventCacheConfig} {st st' : Stores}
  {turns : List (Turn Stores)} {o e p : String} {status : Rsvp}

/-- **What copying an entry to the cache does**, whichever calls fail.

The two effects of the copy are the clock and the call of the cache, and the second one is not
asked for if no lifetime is left. The last part is what a reader sees: the entry that was written,
if it was still to live and the call did not fail. -/
theorem copied_of_runs {entry : Confirmation} {event : Option Event} {result : Except Error Unit}
    (run : Work.Runs (failing refused Waits) st (entry.cache c (event.bind (·.endsAt))).run turns
      result st') :
    ∃ now rest, turns.map (·.deed) = ⟨.request .now, now⟩ :: rest ∧
      st'.roster = st.roster ∧ st'.trail = st.trail ∧
      (∀ key ≠ entry.key, st'.cache.entries.find? key = st.cache.entries.find? key) ∧
      (0 < (lifetimeEnd c event now).since now →
        (∀ value ttl, ¬ refused (.cache (.set entry.key value ttl))) →
        (st'.cache.get? st'.clock entry.key).bind Confirmation.ofBytes? = some entry) := by
  rw [Confirmation.run_cache] at run
  obtain ⟨_, now, st₁, rest, rfl, ⟨clock, -, rfl⟩, answered, run₁⟩ := Work.runs_call_iff.mp run
  obtain rfl := Stores.failing_elsewhere answered rfl
  refine ⟨now, rest.map (·.deed), rfl, ?_⟩
  -- the lifetime is computed from what the clock answered, so the run is followed up to there
  -- first
  cases hremaining : (lifetimeEnd c event now).remaining now with
  | none =>
    rw [lifetimeEnd] at hremaining
    rw [hremaining] at run₁
    obtain ⟨rfl, rfl, rfl⟩ := Work.runs_pure_iff.mp run₁
    refine ⟨rfl, rfl, fun _ _ => rfl, fun hpos _ => ?_⟩
    obtain ⟨ttl, httl⟩ := Instant.exists_remaining hpos
    rw [lifetimeEnd] at httl
    cases hremaining.symm.trans httl
  | some ttl =>
    have hpos := Instant.nanos_pos_of_remaining hremaining
    rw [lifetimeEnd] at hremaining
    rw [hremaining] at run₁
    obtain ⟨st₂, answer, st₃, rest, rfl, ⟨clock', -, rfl⟩, answered, run₂⟩ :=
      Work.runs_call_iff.mp (run₁ : Work.Runs _ _ (Work.request (.cache
        (.set entry.key entry.toBytes (some ttl))) >>= pure) _ _ _)
    obtain ⟨rfl, rfl, rfl⟩ := Work.runs_pure_iff.mp run₂
    rcases Stores.failing_cache answered with ⟨hrefused, -, rfl⟩ | ⟨-, rfl, rfl⟩
    · exact ⟨rfl, rfl, fun _ _ => rfl, fun _ hworks => absurd hrefused (hworks _ _)⟩
    · refine ⟨rfl, rfl, fun key hne => ?_, fun _ _ => ?_⟩
      · exact (Cache.TimedMap.find?_set _ key).trans (if_neg hne)
      · have hget : (st.cache.set clock' entry.key entry.toBytes (some ttl)).get? clock' entry.key =
            some entry.toBytes := Cache.TimedMap.get?_set_self _ _ _ _ hpos
        exact (congrArg (·.bind Confirmation.ofBytes?) hget).trans entry.ofBytes?_toBytes

/-- **How a recording ends.** -/
inductive Outcome (refused : Request → Prop) (c : EventCacheConfig) (o e p : String) (status : Rsvp)
    (st : Stores) : List (Turn Stores) → Except Error Confirmation → Stores → Prop
  /-- The participant or the event could not be looked up. -/
  | unseen {turns : List (Turn Stores)} {st' : Stores} (err : Error)
      (h : refused (.roster (.getParticipant p)) ∨ refused (.roster (.getEvent e)))
      (hwaits : st.Waits st') : Outcome refused c o e p status st turns (.error err) st'
  /-- There is no such participant. -/
  | unknown {turns : List (Turn Stores)} {st' : Stores}
      (h : (st.roster.participant? p).filter (·.belongsTo o e) = none) (hwaits : st.Waits st') :
      Outcome refused c o e p status st turns (.error (.notFound "participant" p)) st'
  /-- The reply could not be stored. -/
  | unstored {turns : List (Turn Stores)} {st' : Stores} {q : Participant} (err : Error)
      (hq : st.roster.participant? p = some q) (hbelongs : q.belongsTo o e = true)
      (h : refused (.roster (.updateParticipantStatus p status))) (hwaits : st.Waits st') :
      Outcome refused c o e p status st turns (.error err) st'
  /-- The reply was stored, and its entry may have been copied. -/
  | stored {turns : List (Turn Stores)} {st' : Stores} {q : Participant} (at_ now : Instant)
      (rest : List Answered) (hq : st.roster.participant? p = some q)
      (hbelongs : q.belongsTo o e = true)
      (hdeeds : turns.map (·.deed) =
        Rsvp.stored ⟨o, e, p, status, at_⟩ q (st.roster.event? e) ++ ⟨.request .now, now⟩ :: rest)
      (hroster : st'.roster =
        { st.roster with participants := Roster.setFirst p status st.roster.participants })
      (htrail : st'.trail = st.trail)
      (hothers : ∀ key ≠ Cache.Key.confirmation o e p,
        st'.cache.entries.find? key = st.cache.entries.find? key)
      (hcached : 0 < (lifetimeEnd c (st.roster.event? e) now).since now →
        (∀ value ttl, ¬ refused (.cache (.set (Cache.Key.confirmation o e p) value ttl))) →
        (st'.cache.get? st'.clock (Cache.Key.confirmation o e p)).bind Confirmation.ofBytes? =
          some ⟨o, e, p, status, at_⟩) :
      Outcome refused c o e p status st turns (.ok ⟨o, e, p, status, at_⟩) st'

/-- **Every recording ends in one of these ways.**

The run is followed call by call. Until the reply is stored, an answer either ends the recording,
in which case the stores have only waited, or leads to the next call with the answer that the
stores of the beginning give: others who come in between let time pass and nothing else, so the
waiting before every call is carried along and taken off at the end. -/
theorem outcome_of_runs {result : Except Error Confirmation}
    (run : Work.Runs (failing refused Waits) st (record c o e p status).run turns result st') :
    Outcome refused c o e p status st turns result st' := by
  rw [run_record] at run
  obtain ⟨st₁, _, _, _, rfl, hwaits₁, answered₁, run₁⟩ := Work.runs_call_iff.mp run
  obtain ⟨rfl, ⟨hrefused, err, rfl⟩ | ⟨-, rfl⟩⟩ := Stores.failing_getParticipant answered₁
  · obtain ⟨rfl, rfl, rfl⟩ := Work.runs_pure_iff.mp run₁
    exact .unseen err (.inl hrefused) hwaits₁
  rw [hwaits₁.roster] at run₁ ⊢
  cases hsomeone : (st.roster.participant? p).filter (·.belongsTo o e) with
  | none =>
    dsimp only at run₁
    rw [hsomeone] at run₁
    obtain ⟨rfl, rfl, rfl⟩ := Work.runs_pure_iff.mp run₁
    exact .unknown hsomeone hwaits₁
  | some q =>
    dsimp only at run₁
    rw [hsomeone] at run₁
    obtain ⟨hq, hbelongs⟩ := Option.filter_eq_some_iff.mp hsomeone
    obtain ⟨st₂, _, _, _, rfl, hwaits₂, answered₂, run₂⟩ := Work.runs_call_iff.mp run₁
    replace hwaits₂ := hwaits₁.trans hwaits₂
    obtain ⟨rfl, ⟨hrefused, err, rfl⟩ | ⟨-, rfl⟩⟩ := Stores.failing_getEvent answered₂
    · obtain ⟨rfl, rfl, rfl⟩ := Work.runs_pure_iff.mp run₂
      exact .unseen err (.inr hrefused) hwaits₂
    rw [hwaits₂.roster] at run₂ ⊢
    obtain ⟨st₃, _, st₄, _, rfl, hwaits₃, answered₃, run₃⟩ := Work.runs_call_iff.mp run₂
    replace hwaits₃ := hwaits₂.trans hwaits₃
    rcases Stores.failing_roster answered₃ with ⟨hrefused, ⟨err, rfl⟩, rfl⟩ | ⟨-, rfl, rfl⟩
    · obtain ⟨rfl, rfl, rfl⟩ := Work.runs_pure_iff.mp run₃
      rw [Roster.id_of_participant? hq] at hrefused
      exact .unstored err hq hbelongs hrefused hwaits₃
    rw [hwaits₃.roster, Roster.id_of_participant? hq, Roster.respond_update _ status hq] at run₃
    -- the reply is stored: from here on the result is a success, whatever the cache does
    obtain ⟨st₄, at_, _, _, rfl, hwaits₄, answered₄, run₄⟩ := Work.runs_call_iff.mp run₃
    obtain rfl := Stores.failing_elsewhere answered₄ rfl
    obtain ⟨first, last, copied, _, rfl, copying, hdone⟩ := Work.runs_bind_iff.mp run₄
    obtain ⟨rfl, rfl, rfl⟩ := Work.runs_pure_iff.mp hdone
    obtain ⟨now, rest, hdeeds, hroster, htrail, hothers, hcached⟩ := copied_of_runs copying
    have hstored : Stores.respond st₃.roster (.updateParticipantStatus q.id status) =
        (.ok (), { st.roster with
          participants := Roster.setFirst p status st.roster.participants }) := by
      rw [hwaits₃.roster, Roster.id_of_participant? hq, Roster.respond_update _ status hq]
    refine .stored at_ now rest hq hbelongs ?_ ?_ ?_ (fun key hne => ?_) hcached
    · rw [hq, hstored]
      simp only [List.map_cons, List.append_nil, hdeeds]
      rfl
    · rw [hroster, hwaits₄.roster]
    · rw [htrail, hwaits₄.trail, hwaits₃.trail]
    · rw [hothers key hne, hwaits₄.cache, hwaits₃.cache]

/-- **What a recording does**, whichever calls fail. -/
structure Recorded (refused : Request → Prop) (c : EventCacheConfig) (o e p : String)
    (status : Rsvp) (st : Stores) (turns : List (Turn Stores))
    (result : Except Error Confirmation) (st' : Stores) : Prop where
  /-- If it ends in an error, nothing has happened but that time has passed. -/
  failed : ∀ err, result = .error err → st.Waits st'
  /-- Where the look-ups work, a participant who does not belong there is not found. -/
  missing : ¬ refused (.roster (.getParticipant p)) → ¬ refused (.roster (.getEvent e)) →
    (∀ q ∈ st.roster.participants, ¬ (q.id = p ∧ q.eventId = e ∧ q.orgId = o)) →
    result = .error (.notFound "participant" p)
  /-- Where the reply can be stored, it does not matter whether the cache works. -/
  accepted : ¬ refused (.roster (.getParticipant p)) → ¬ refused (.roster (.getEvent e)) →
    ¬ refused (.roster (.updateParticipantStatus p status)) →
    ∀ q, st.roster.participant? p = some q → q.eventId = e → q.orgId = o →
    ∃ entry, result = .ok entry
  /-- If it succeeds, one participant has replied, who keeps the place, and nobody else. -/
  stored : ∀ entry, result = .ok entry → ∃ before q after,
    st.roster.participants = before ++ q :: after ∧ q.id = p ∧ q.eventId = e ∧ q.orgId = o ∧
      (st.roster.IsUnique → ∀ x ∈ before ++ after, x.id ≠ p) ∧
      st'.roster =
        { st.roster with participants := before ++ { q with status := status } :: after } ∧
      st'.trail = st.trail
  /-- No other key of the cache is touched. -/
  others : ∀ key ≠ Cache.Key.confirmation o e p,
    st'.cache.entries.find? key = st.cache.entries.find? key
  /-- If it succeeds, the answer is the entry that is read from a cache that works, if it was still
  to live when it was written. -/
  cached : ∀ entry, result = .ok entry → ∃ at_ q now rest, entry = ⟨o, e, p, status, at_⟩ ∧
    turns.map (·.deed) =
      Rsvp.stored entry q (st.roster.event? e) ++ ⟨.request .now, now⟩ :: rest ∧
    (0 < (lifetimeEnd c (st.roster.event? e) now).since now →
      (∀ value ttl, ¬ refused (.cache (.set (Cache.Key.confirmation o e p) value ttl))) →
      (st'.cache.get? st'.clock (Cache.Key.confirmation o e p)).bind Confirmation.ofBytes? =
        some entry)

theorem not_missing {q : Participant} (hq : st.roster.participant? p = some q)
    (hbelongs : q.belongsTo o e = true) :
    ¬ ∀ q ∈ st.roster.participants, ¬ (q.id = p ∧ q.eventId = e ∧ q.orgId = o) := fun hmissing =>
  have h := Participant.belongsTo_iff.mp hbelongs
  hmissing q (List.mem_of_find?_eq_some hq) ⟨Roster.id_of_participant? hq, h.2, h.1⟩

/-- A recording that ends in one of these ways does just that.

In the three ways that are errors everything about a success holds for lack of one. Where a
look-up failed, the statements about look-ups that work hold for lack of those. -/
theorem Outcome.recorded {result : Except Error Confirmation}
    (h : Outcome refused c o e p status st turns result st') :
    Recorded refused c o e p status st turns result st' := by
  cases h with
  | unseen err h hwaits =>
    refine ⟨fun _ _ => hwaits, fun hp he _ => ?_, fun hp he => ?_, (fun _ h => by cases h),
      fun _ _ => by rw [hwaits.cache], fun _ h => by cases h⟩
    · exact (h.elim hp he).elim
    · exact (h.elim hp he).elim
  | unknown h hwaits =>
    refine ⟨fun _ _ => hwaits, fun _ _ _ => rfl, fun _ _ _ q hq he ho => ?_,
      (fun _ h => by cases h), fun _ _ => by rw [hwaits.cache], fun _ h => by cases h⟩
    exact absurd (Participant.belongsTo_iff.mpr ⟨ho, he⟩) (Option.filter_eq_none_iff.mp h q hq)
  | unstored err hq hbelongs h hwaits =>
    exact ⟨fun _ _ => hwaits, fun _ _ hmissing => (not_missing hq hbelongs hmissing).elim,
      fun _ _ hupdate => absurd h hupdate, (fun _ h => by cases h),
      fun _ _ => by rw [hwaits.cache], fun _ h => by cases h⟩
  | @stored _ q at_ now rest hq hbelongs hdeeds hroster htrail hothers hcached =>
    obtain ⟨ho, he⟩ := Participant.belongsTo_iff.mp hbelongs
    have hid := Roster.id_of_participant? hq
    refine ⟨(fun _ h => by cases h), fun _ _ hmissing => (not_missing hq hbelongs hmissing).elim,
      fun _ _ _ _ _ _ _ => ⟨_, rfl⟩, fun entry hok => ?_, hothers, fun entry hok => ?_⟩
    · obtain ⟨before, after, hsplit, hset⟩ := Roster.exists_setFirst status hq
      refine ⟨before, q, after, hsplit, hid, he, ho, fun hunique => ?_, ?_, htrail⟩
      · exact hid ▸ hunique.ne_of_split hsplit
      · rw [hroster, hset]
    · obtain rfl := Except.ok.inj hok
      exact ⟨at_, q, now, rest, rfl, hdeeds, hcached⟩

/-- **A recording stores everything or nothing**, whichever calls fail: it comes to an end, and
what it has done can be told from its result. While programs run, identifiers stay unique.

The last part is what makes the first one strong. Where identifiers are unique, `Recorded.stored`
says that nobody else in the whole store has the identifier of the participant, so that there is
no second one who could have been meant. -/
theorem record_all_or_nothing (refused : Request → Prop) (c : EventCacheConfig) (o e p : String)
    (status : Rsvp) (st : Stores) :
    ((∃ turns result st', Work.Runs (failing refused Waits) st (record c o e p status).run turns
        result st') ∧
      ∀ turns result st', Work.Runs (failing refused Waits) st (record c o e p status).run turns
        result st' → Recorded refused c o e p status st turns result st') ∧
      ∀ (fails : Request → Prop) (calls : Work Unit → Prop) (programs : List (Work Unit))
        (pool : Pool Stores), st.roster.IsUnique →
        Pool.Steps (Stores.shared fails Stores.Enrols) calls ⟨st, programs⟩ pool →
        pool.state.roster.IsUnique :=
  ⟨⟨Stores.exists_run Waits.refl refused _ st, fun _ _ _ run => (outcome_of_runs run).recorded⟩,
    fun _ _ _ _ hunique hsteps => hunique.steps hsteps⟩

/-- The guest is invited again, to another meeting. -/
def reinvited : Stores :=
  { invited with roster := invited.roster.insertParticipant { guest with eventId := "f" } }

/-- Who was invited comes, even though the cache is down; and who is invited again is there once. -/
theorem record_all_or_nothing_of_invited :
    (∃ turns entry st', Work.Runs (failing Request.IsCacheCall Waits) invited
        (record {} "o" "e" "p" .confirmed).run turns (.ok entry) st' ∧
      Recorded Request.IsCacheCall {} "o" "e" "p" .confirmed invited turns (.ok entry) st') ∧
      invited.roster.IsUnique ∧ reinvited.roster.IsUnique := by
  have hlook : ∀ {call : Roster.Call}, ¬ Request.IsCacheCall (.roster call) :=
    fun ⟨_, h⟩ => by cases h
  obtain ⟨⟨⟨turns, result, st', run⟩, hrecorded⟩, hsteps⟩ :=
    record_all_or_nothing Request.IsCacheCall {} "o" "e" "p" .confirmed invited
  have recorded := hrecorded turns result st' run
  obtain ⟨entry, rfl⟩ := recorded.accepted hlook hlook hlook guest rfl rfl rfl
  have hunique : invited.roster.IsUnique := List.nodup_singleton _
  have henrols : invited.Enrols reinvited := .inr ⟨_, rfl⟩
  exact ⟨⟨turns, entry, st', run, recorded⟩, hunique,
    hsteps Request.IsCacheCall (fun _ => False) [] ⟨reinvited, []⟩ hunique
      (.single (.meanwhile henrols))⟩

end Rsvp

end Gathering
