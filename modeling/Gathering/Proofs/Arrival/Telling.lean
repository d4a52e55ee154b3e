import Gathering.Proofs.Arrival.Forecast
import Gathering.Proofs.Location.Intake
import Gathering.Proofs.Scheduler.Cancellation
import Gathering.Proofs.Store.Failing

/-!
# Telling a participant when the arrival is expected

Before a participant is told anything, the event, the place where it meets, the
participant and the latest location have to be there, and each of these can be missing
or fail to be looked up. Then nothing is sent. Otherwise one message is sent, and the
minutes that it names are those of the estimate that anybody who asks gets from the
same stores (`Forecast.Told`).

A location that cannot be looked up in the cache is looked up in the history. Where
neither look-up fails, the only thing that can be missing for an estimate is a location,
and it is missing exactly if neither of the two has one (`Forecast.missing_iff`).
-/

namespace Gathering

/-! ## The latest location -/

namespace Stores

/-- **What comes of looking for a location**, by which calls fail: the cached one is found if the
cache answers and its entry can be read, and otherwise the history is asked. -/
inductive Locates (refused : Request → Prop) (st : Stores) (e p : String) :
    Except Error (Option Sample) → Prop
  /-- The cache has it. -/
  | cached {s : Sample} (h : ¬ refused (.cache (.get (Cache.Key.location e p))))
      (hs : st.cached? e p = some s) : Locates refused st e p (.ok (some s))
  /-- The history says whether there is one. -/
  | history (h : refused (.cache (.get (Cache.Key.location e p))) ∨ st.cached? e p = none)
      (htrail : ¬ refused (.trail (.latest e p))) :
      Locates refused st e p (.ok (st.trail.latest e p))
  /-- The history has failed. -/
  | failed (h : refused (.cache (.get (Cache.Key.location e p))) ∨ st.cached? e p = none)
      (htrail : refused (.trail (.latest e p))) (err : Error) : Locates refused st e p (.error err)

variable {refused : Request → Prop} {st : Stores} {e p : String}

/-- Who comes to an answer comes to no other. -/
theorem Locates.unique {o : Option Sample} {r : Except Error (Option Sample)}
    (h : Locates refused st e p (.ok o)) (h' : Locates refused st e p r) : r = .ok o := by
  cases h with
  | cached hget hs =>
    cases h' with
    | cached _ hs' => rw [← hs, hs']
    | history h _ | failed h _ => rcases h with h | h <;> simp_all
  | history hcache htrail =>
    cases h' with
    | cached hget hs => rcases hcache with h | h <;> simp_all
    | history _ _ => rfl
    | failed _ h => exact absurd h htrail

/-- Where neither look-up fails, there is an answer. -/
theorem locates_of_reads (hget : ¬ refused (.cache (.get (Cache.Key.location e p))))
    (htrail : ¬ refused (.trail (.latest e p))) :
    Locates refused st e p (.ok ((st.cached? e p).or (st.trail.latest e p))) := by
  cases hcached : st.cached? e p with
  | none => exact .history (.inr hcached) htrail
  | some s => exact .cached hget hcached

end Stores

/-- There is no latest sample exactly if there is no sample. -/
theorem Trail.latest_eq_none_iff {t : Trail} {e p : String} :
    t.latest e p = none ↔ ∀ s ∈ t.samples, ¬ (s.eventId = e ∧ s.participantId = p) := by
  have hof : t.latest e p = latestOf (t.of e p) := rfl
  rw [hof]
  rcases latestOf_spec (t.of e p) with ⟨hnil, hnone⟩ | ⟨s, hs, hsome, -⟩
  · refine iff_of_true hnone fun s hs hpair => ?_
    exact List.filter_eq_nil_iff.mp hnil s hs (Sample.isOf_iff.mpr hpair)
  · obtain ⟨hmem, hpair⟩ := List.mem_filter.mp hs
    refine iff_of_false (by rw [hsome]; nofun) fun hnot => hnot s hmem (Sample.isOf_iff.mp hpair)

open Stores (Locates ComesTo still)

/-- Whether an effect looks up an event, a participant or a location. -/
def Effect.looksUp : Effect → Bool
  | .request (.roster (.getEvent _)) | .request (.roster (.getParticipant _)) => true
  | .request (.cache (.get _)) | .request (.trail (.latest _ _)) => true
  | _ => false

theorem Effect.sends_of_looksUp {e : Effect} (h : e.looksUp = true) : e.sends = false := by
  unfold looksUp at h
  split at h <;> first | rfl | cases h

namespace Forecast

variable {refused : Request → Prop} {st st' : Stores} {turns : List (Turn Stores)} {c : EtaConfig}
  {e p : String} {target : Coordinate}

/-- Turns in which something is looked up, and nothing is changed or sent. -/
abbrev IsSilent (turns : List (Turn Stores)) : Prop := ∀ turn ∈ turns, turn.effect.looksUp = true

/-- A cached location is looked for, and the cache may fail. -/
theorem cached_of_runs {found : Option Sample}
    (run : Work.Runs (still refused) st (Tracking.cached? (Cache.Key.location e p)) turns found
      st') :
    st' = st ∧ IsSilent turns ∧
      ((¬ refused (.cache (.get (Cache.Key.location e p))) ∧ found = st.cached? e p) ∨
        (refused (.cache (.get (Cache.Key.location e p))) ∧ found = none)) := by
  unfold Tracking.cached? at run
  obtain ⟨st₁, answer, st₂, rest, rfl, rfl, answered, run'⟩ := Work.runs_call_iff.mp run
  have hsilent : ∀ answer st₂, IsSilent
      [⟨st, .request (.cache (.get (Cache.Key.location e p))), answer, st₂⟩] :=
    fun _ _ => List.forall_mem_singleton.mpr rfl
  rcases Stores.failing_cache answered with ⟨hrefused, ⟨err, rfl⟩, rfl⟩ | ⟨hholds, rfl, rfl⟩
  · obtain ⟨rfl, rfl, rfl⟩ := Work.runs_pure_iff.mp run'
    exact ⟨rfl, hsilent _ _, .inr ⟨hrefused, rfl⟩⟩
  · have hanswer : (st.cache.perform st.clock (.get (Cache.Key.location e p))).1 =
        st.cache.get? st.clock (Cache.Key.location e p) := rfl
    rw [hanswer] at run'
    unfold Stores.cached?
    cases hget : st.cache.get? st.clock (Cache.Key.location e p) with
    | none =>
      rw [hget] at run'
      obtain ⟨rfl, rfl, rfl⟩ := Work.runs_pure_iff.mp run'
      exact ⟨rfl, hsilent _ _, .inl ⟨hholds, rfl⟩⟩
    | some bytes =>
      rw [hget] at run'
      obtain ⟨rfl, rfl, rfl⟩ := Work.runs_pure_iff.mp run'
      exact ⟨rfl, hsilent _ _, .inl ⟨hholds, rfl⟩⟩

/-- **How a location is looked for**, whichever calls fail.

The cache is asked first. If it has failed, or has nothing that can be read, then the history is
asked, and whatever it answers is the answer. -/
theorem locates_of_runs {result : Except Error (Option Sample)}
    (run : Work.Runs (still refused) st (Tracking.latest e p).run turns result st') :
    st' = st ∧ IsSilent turns ∧ Locates refused st e p result := by
  rw [Tracking.run_latest] at run
  obtain ⟨first, last, found, st₁, rfl, looked, run'⟩ := Work.runs_bind_iff.mp run
  obtain ⟨rfl, hfirst, hfound⟩ := cached_of_runs looked
  cases found with
  | some s =>
    obtain ⟨rfl, rfl, rfl⟩ := Work.runs_pure_iff.mp run'
    rw [List.append_nil]
    obtain ⟨hholds, hs⟩ | ⟨-, hnone⟩ := hfound
    · exact ⟨rfl, hfirst, .cached hholds hs.symm⟩
    · cases hnone
  | none =>
    have hmissed : refused (.cache (.get (Cache.Key.location e p))) ∨ st₁.cached? e p = none :=
      hfound.elim (fun h => .inr h.2.symm) fun h => .inl h.1
    obtain ⟨st₂, answer, st₃, rest, rfl, rfl, answered, run''⟩ := Work.runs_call_iff.mp
      (run' : Work.Runs _ _ (Work.request (.trail (.latest e p)) >>= pure) _ _ _)
    obtain ⟨rfl, rfl, rfl⟩ := Work.runs_pure_iff.mp run''
    have hsilent : IsSilent (first ++
        [⟨st₁, .request (.trail (.latest e p)), result, st'⟩]) :=
      List.forall_mem_append.mpr ⟨hfirst, List.forall_mem_singleton.mpr rfl⟩
    rcases Stores.failing_trail answered with ⟨hrefused, ⟨err, rfl⟩, rfl⟩ | ⟨hholds, rfl, rfl⟩
    · exact ⟨rfl, hsilent, .failed hmissed hrefused err⟩
    · exact ⟨rfl, hsilent, .history hmissed hholds⟩

theorem comesTo_latest_iff {o : Option Sample} :
    ComesTo refused st (Tracking.latest e p).run (.ok o) ↔ Locates refused st e p (.ok o) := by
  constructor
  · rintro ⟨⟨turns, run⟩, -⟩
    exact (locates_of_runs run).2.2
  · intro h
    refine Stores.comesTo_of_runs fun turns r st' run => ?_
    obtain ⟨rfl, -, hlocates⟩ := locates_of_runs run
    exact ⟨h.unique hlocates, rfl⟩

/-! ## The estimate -/

/-- What is made of a location that was looked for. -/
def estimated (c : EtaConfig) (p : String) (target : Coordinate) :
    Except Error (Option Sample) → Except Error Estimate
  | .error err => .error err
  | .ok none => .error (.notFound "location" p)
  | .ok (some s) => .ok (.ofSample s target c.averageSpeedKmh)

/-- **How an estimate is made**: the location is looked for. -/
theorem run_ofParticipant (c : EtaConfig) (e p : String) (h : target.validate = .ok ()) :
    (ofParticipant c e p target).run = estimated c p target <$> (Tracking.latest e p).run := by
  unfold ofParticipant
  rw [h, ← bind_pure_comp]
  refine congrArg ((Tracking.latest e p).run >>= ·) (funext fun found => ?_)
  match found with
  | .error _ | .ok none | .ok (some _) => rfl

/-- A target that names no place is refused. -/
theorem run_ofParticipant_of_error (c : EtaConfig) (e p : String) {err : Error}
    (h : target.validate = .error err) :
    (ofParticipant c e p target).run = pure (.error err) := by
  unfold ofParticipant
  rw [h]
  rfl

/-- **What comes of an estimate**, whichever calls fail. -/
theorem estimated_of_runs {result : Except Error Estimate}
    (run : Work.Runs (still refused) st (ofParticipant c e p target).run turns result st') :
    st' = st ∧ IsSilent turns ∧
      ((∃ err, target.validate = .error err ∧ result = .error err) ∨
        ∃ r, target.validate = .ok () ∧ Locates refused st e p r ∧
          result = estimated c p target r) := by
  cases hvalid : target.validate with
  | error err =>
    rw [run_ofParticipant_of_error c e p hvalid] at run
    obtain ⟨rfl, rfl, rfl⟩ := Work.runs_pure_iff.mp run
    exact ⟨rfl, (fun _ h => by cases h), .inl ⟨err, rfl, rfl⟩⟩
  | ok _ =>
    rw [run_ofParticipant c e p hvalid] at run
    obtain ⟨r, rfl, run'⟩ := Work.runs_map_iff.mp run
    obtain ⟨rfl, hsilent, hlocates⟩ := locates_of_runs run'
    exact ⟨rfl, hsilent, .inr ⟨r, rfl, hlocates, rfl⟩⟩

/-- Once it is known whether there is a location, everybody gets the same estimate, or none. -/
theorem comesTo_ofParticipant {o : Option Sample} (c : EtaConfig)
    (hvalid : target.validate = .ok ()) (h : Locates refused st e p (.ok o)) :
    ComesTo refused st (ofParticipant c e p target).run (estimated c p target (.ok o)) := by
  refine Stores.comesTo_of_runs fun turns r st' run => ?_
  obtain ⟨rfl, -, ⟨err, herr, -⟩ | ⟨found, -, hlocates, rfl⟩⟩ := estimated_of_runs run
  · cases hvalid.symm.trans herr
  · rw [h.unique hlocates]
    exact ⟨rfl, rfl⟩

/-- **An estimate is missing exactly if there is no location**, neither a cached one that can be
read nor one in the history.

The other error that an estimate may have is one of a look-up, which does not occur where neither
look-up fails. -/
theorem missing_iff (c : EtaConfig) (target : Coordinate) :
    (∃ kind id, estimated c p target (.ok ((st.cached? e p).or (st.trail.latest e p))) =
        .error (.notFound kind id)) ↔
      (∀ bytes, st.cache.get? st.clock (Cache.Key.location e p) = some bytes →
        Sample.ofBytes? bytes = none) ∧
      ∀ s ∈ st.trail.samples, ¬ (s.eventId = e ∧ s.participantId = p) := by
  have hcached : st.cached? e p = none ↔
      ∀ bytes, st.cache.get? st.clock (Cache.Key.location e p) = some bytes →
        Sample.ofBytes? bytes = none := Option.bind_eq_none_iff
  rw [← hcached, ← Trail.latest_eq_none_iff, ← Option.or_eq_none_iff]
  cases (st.cached? e p).or (st.trail.latest e p) with
  | none => exact iff_of_true ⟨_, _, rfl⟩ rfl
  | some s => exact iff_of_false (by rintro ⟨_, _, h⟩; cases h) (by nofun)

/-! ## The message -/

/-- **How a participant is told**: everything is looked up before the message is sent. -/
theorem run_send (c : EtaConfig) (e p : String) :
    (send c e p).run = (do
      match ← Work.request (.roster (.getEvent e)) with
      | .error err => return .error err
      | .ok none => return .error (.notFound "event" e)
      | .ok (some event) =>
        match meetingPoint event e with
        | .error err => return .error err
        | .ok target =>
          match ← Work.request (.roster (.getParticipant p)) with
          | .error err => return .error err
          | .ok someone =>
            match someone.filter fun q => q.eventId = e with
            | none => return .error (.notFound "participant" p)
            | some participant =>
              match ← (ofParticipant c e p target).run with
              | .error err => return .error err
              | .ok estimate =>
                let answer ← Work.request (.send (.eta event participant estimate.etaMinutes))
                return answer.map fun _ => estimate) := by
  refine congrArg (Work.request (.roster (.getEvent e)) >>= ·) (funext fun event? => ?_)
  match event? with
  | .error _ | .ok none => rfl
  | .ok (some event) =>
    show ExceptT.run (do
      let target ← Job.checked (meetingPoint event e)
      let someone ← Job.roster (.getParticipant p)
      let participant ← Job.found "participant" p (someone.filter fun q => q.eventId = e)
      let estimate ← ofParticipant c e p target
      Job.send (.eta event participant estimate.etaMinutes)
      return estimate) = _
    dsimp only
    cases meetingPoint event e with
    | error err => rfl
    | ok target =>
      refine congrArg (Work.request (.roster (.getParticipant p)) >>= ·) (funext fun someone => ?_)
      cases someone with
      | error err => rfl
      | ok someone =>
        show ExceptT.run (do
          let participant ← Job.found "participant" p (someone.filter fun q => q.eventId = e)
          let estimate ← ofParticipant c e p target
          Job.send (.eta event participant estimate.etaMinutes)
          return estimate) = _
        dsimp only
        cases someone.filter fun q => q.eventId = e with
        | none => rfl
        | some participant =>
          refine congrArg ((ofParticipant c e p target).run >>= ·) (funext fun estimate => ?_)
          cases estimate with
          | error err => rfl
          | ok estimate =>
            refine congrArg
              (Work.request (.send (.eta event participant estimate.etaMinutes)) >>= ·)
              (funext fun answer => ?_)
            cases answer <;> rfl

/-- **Everything is there that a message is made of**, and can be looked up. -/
structure Ready (refused : Request → Prop) (st : Stores) (e p : String) (event : Event)
    (target : Coordinate) (participant : Participant) (sample : Sample) : Prop where
  /-- The event can be looked up. -/
  asked : ¬ refused (.roster (.getEvent e))
  /-- The event is there. -/
  found : st.roster.event? e = some event
  /-- It meets somewhere. -/
  place : event.location = some target
  /-- That place is on the globe. -/
  valid : target.validate = .ok ()
  /-- The participant can be looked up. -/
  known : ¬ refused (.roster (.getParticipant p))
  /-- The participant is there. -/
  attends : st.roster.participant? p = some participant
  /-- The participant belongs to the event. -/
  belongs : participant.eventId = e
  /-- Whoever looks for the latest location finds it. -/
  located : ComesTo refused st (Tracking.latest e p).run (.ok (some sample))

/-- **How a telling ends.** -/
inductive Ended (refused : Request → Prop) (st : Stores) (c : EtaConfig) (e p : String) :
    List (Turn Stores) → Except Error Estimate → Prop
  /-- Something is missing, and nothing was sent. -/
  | silent {turns : List (Turn Stores)} (err : Error) (h : IsSilent turns)
      (hmissing : ∀ event target participant sample,
        ¬ Ready refused st e p event target participant sample) :
      Ended refused st c e p turns (.error err)
  /-- The message was sent last. -/
  | told {first : List (Turn Stores)} {event : Event} {target : Coordinate}
      {participant : Participant} {sample : Sample} (hfirst : IsSilent first)
      (ready : Ready refused st e p event target participant sample) (answer : Except Error Unit) :
      Ended refused st c e p
        (first ++ [⟨st, .request (.send (.eta event participant
          (Estimate.ofSample sample target c.averageSpeedKmh).etaMinutes)), answer, st⟩])
        (answer.map fun _ => .ofSample sample target c.averageSpeedKmh)

/-- Where an event meets is read off. -/
theorem meetingPoint_eq_ok_iff {event : Event} :
    meetingPoint event e = .ok target ↔ event.location = some target := by
  unfold meetingPoint
  cases event.location <;> simp

theorem isSilent_cons {turn : Turn Stores} (h : turn.effect.looksUp = true)
    (hturns : IsSilent turns) : IsSilent (turn :: turns) :=
  List.forall_mem_cons.mpr ⟨h, hturns⟩

theorem isSilent_nil : IsSilent [] := fun _ h => by cases h

theorem Ended.cons {result : Except Error Estimate} {turn : Turn Stores}
    (h : turn.effect.looksUp = true) (hended : Ended refused st c e p turns result) :
    Ended refused st c e p (turn :: turns) result := by
  cases hended with
  | silent err hturns hmissing => exact .silent err (isSilent_cons h hturns) hmissing
  | told hfirst ready answer => exact .told (isSilent_cons h hfirst) ready answer

/-- **The end of a telling**, when everything is found but the location. -/
theorem ended_of_estimate {event : Event} {participant : Participant}
    {result : Except Error Estimate} (hasked : ¬ refused (.roster (.getEvent e)))
    (hfound : st.roster.event? e = some event) (hplace : event.location = some target)
    (hknown : ¬ refused (.roster (.getParticipant p)))
    (hattends : st.roster.participant? p = some participant) (hbelongs : participant.eventId = e)
    (run : Work.Runs (still refused) st (do
      match ← (ofParticipant c e p target).run with
      | .error err => return .error err
      | .ok estimate =>
        let answer ← Work.request (.send (.eta event participant estimate.etaMinutes))
        return answer.map fun _ => estimate) turns result st') :
    st' = st ∧ Ended refused st c e p turns result := by
  -- event and place are known here, so what is left of `Ready` are the target and the location
  have hready : ∀ {event' target' participant' sample},
      Ready refused st e p event' target' participant' sample →
        target.validate = .ok () ∧ Locates refused st e p (.ok (some sample)) := fun ready => by
    obtain rfl := Option.some.inj (hfound.symm.trans ready.found)
    obtain rfl := Option.some.inj (hplace.symm.trans ready.place)
    exact ⟨ready.valid, comesTo_latest_iff.mp ready.located⟩
  obtain ⟨first, last, estimate, st₁, rfl, looked, run'⟩ := Work.runs_bind_iff.mp run
  obtain ⟨rfl, hsilent, ⟨err, herr, rfl⟩ | ⟨found, hvalid, hlocates, rfl⟩⟩ :=
    estimated_of_runs looked
  · obtain ⟨rfl, rfl, rfl⟩ := Work.runs_pure_iff.mp run'
    rw [List.append_nil]
    exact ⟨rfl, .silent err hsilent fun _ _ _ _ ready => by
      cases herr.symm.trans (hready ready).1⟩
  · match found with
    | .error err =>
      obtain ⟨rfl, rfl, rfl⟩ := Work.runs_pure_iff.mp run'
      rw [List.append_nil]
      exact ⟨rfl, .silent err hsilent fun _ _ _ _ ready => by
        cases (hready ready).2.unique hlocates⟩
    | .ok none =>
      obtain ⟨rfl, rfl, rfl⟩ := Work.runs_pure_iff.mp run'
      rw [List.append_nil]
      exact ⟨rfl, .silent _ hsilent fun _ _ _ _ ready => by
        cases (hready ready).2.unique hlocates⟩
    | .ok (some sample) =>
      obtain ⟨st₂, answer, st₃, rest, rfl, rfl, answered, run''⟩ := Work.runs_call_iff.mp run'
      obtain rfl := Stores.failing_elsewhere answered rfl
      obtain ⟨rfl, rfl, rfl⟩ := Work.runs_pure_iff.mp run''
      exact ⟨rfl, .told hsilent ⟨hasked, hfound, hplace, hvalid, hknown, hattends, hbelongs,
        comesTo_latest_iff.mpr hlocates⟩ answer⟩

/-- **Every telling ends in one of the two ways.**

The run is followed look-up by look-up. Each look-up whose answer ends the telling shows that one
of the conditions of `Ready` does not hold, and the estimate is the last of them
(`ended_of_estimate`). -/
theorem ended_of_runs {result : Except Error Estimate}
    (run : Work.Runs (still refused) st (send c e p).run turns result st') :
    st' = st ∧ Ended refused st c e p turns result := by
  rw [run_send] at run
  obtain ⟨st₁, _, st₂, rest, rfl, rfl, answered, run₁⟩ := Work.runs_call_iff.mp run
  obtain ⟨rfl, ⟨hrefused, err, rfl⟩ | ⟨hasked, rfl⟩⟩ := Stores.failing_getEvent answered
  · obtain ⟨rfl, rfl, rfl⟩ := Work.runs_pure_iff.mp run₁
    exact ⟨rfl, .cons rfl (.silent err isSilent_nil fun _ _ _ _ ready => ready.asked hrefused)⟩
  cases hfound : st₂.roster.event? e with
  | none =>
    rw [hfound] at run₁
    obtain ⟨rfl, rfl, rfl⟩ := Work.runs_pure_iff.mp run₁
    exact ⟨rfl, .cons rfl (.silent _ isSilent_nil fun _ _ _ _ ready => by
      cases hfound.symm.trans ready.found)⟩
  | some event =>
    rw [hfound] at run₁
    -- the event is there, and it has to be known where it meets
    cases hmeets : meetingPoint event e with
    | error err =>
      dsimp only at run₁
      rw [hmeets] at run₁
      obtain ⟨rfl, rfl, rfl⟩ := Work.runs_pure_iff.mp run₁
      refine ⟨rfl, .cons rfl (.silent _ isSilent_nil fun _ _ _ _ ready => ?_)⟩
      obtain rfl := Option.some.inj (hfound.symm.trans ready.found)
      cases hmeets.symm.trans (meetingPoint_eq_ok_iff.mpr ready.place)
    | ok target =>
      dsimp only at run₁
      rw [hmeets] at run₁
      have hplace := meetingPoint_eq_ok_iff.mp hmeets
      obtain ⟨st₃, _, st₄, rest, rfl, rfl, answered, run₂⟩ := Work.runs_call_iff.mp run₁
      obtain ⟨rfl, ⟨hrefused, err, rfl⟩ | ⟨hknown, rfl⟩⟩ := Stores.failing_getParticipant answered
      · obtain ⟨rfl, rfl, rfl⟩ := Work.runs_pure_iff.mp run₂
        exact ⟨rfl, .cons rfl (.cons rfl (.silent err isSilent_nil fun _ _ _ _ ready =>
          ready.known hrefused))⟩
      cases hattends : (st₄.roster.participant? p).filter fun q => q.eventId = e with
      | none =>
        dsimp only at run₂
        rw [hattends] at run₂
        obtain ⟨rfl, rfl, rfl⟩ := Work.runs_pure_iff.mp run₂
        exact ⟨rfl, .cons rfl (.cons rfl (.silent _ isSilent_nil fun _ _ _ _ ready =>
          Option.filter_eq_none_iff.mp hattends _ ready.attends (decide_eq_true ready.belongs)))⟩
      | some participant =>
        dsimp only at run₂
        rw [hattends] at run₂
        obtain ⟨hattends, hbelongs⟩ := Option.filter_eq_some_iff.mp hattends
        obtain ⟨rfl, hended⟩ := ended_of_estimate hasked hfound hplace hknown hattends
          (of_decide_eq_true hbelongs) run₂
        exact ⟨rfl, .cons rfl (.cons rfl hended)⟩

/-- **What a telling does**, whichever calls fail. -/
structure Told (refused : Request → Prop) (st : Stores) (c : EtaConfig) (e p : String)
    (turns : List (Turn Stores)) (result : Except Error Estimate) : Prop where
  /-- Nothing is changed: there are look-ups, and there may be a message. -/
  reads : ∀ turn ∈ turns, turn.effect.looksUp = true ∨ turn.effect.sends = true
  /-- One message is sent at most. -/
  once : turns.countP (·.effect.sends) ≤ 1
  /-- What is sent are the minutes that are left by the latest location, to the participant. -/
  grounded : ∀ turn ∈ turns, turn.effect.sends = true → ∃ event target participant sample,
    Ready refused st e p event target participant sample ∧
      turn.effect = .request (.send (.eta event participant
        (Estimate.ofSample sample target c.averageSpeedKmh).etaMinutes))
  /-- A message is sent if everything is there. -/
  complete : ∀ event target participant sample,
    Ready refused st e p event target participant sample → ∃ turn ∈ turns, turn.effect.sends = true
  /-- Being told has succeeded exactly if the message was sent with success. -/
  ok_iff : (∃ estimate, result = .ok estimate) ↔
    ∃ m, (⟨.request (.send m), .ok ()⟩ : Answered) ∈ turns.map (·.deed)
  /-- The estimate is the one that anybody gets who asks for it. -/
  agrees : ∀ estimate, result = .ok estimate → ∃ event target,
    st.roster.event? e = some event ∧ event.location = some target ∧
      ComesTo refused st (ofParticipant c e p target).run (.ok estimate)

theorem not_mem_of_isSilent (h : IsSilent turns) (m : Message) :
    (⟨.request (.send m), .ok ()⟩ : Answered) ∉ turns.map (·.deed) := fun hmem => by
  obtain ⟨turn, hturn, hdeed⟩ := List.mem_map.mp hmem
  have hsends : turn.deed.effect.sends = true := by rw [hdeed]; rfl
  cases hsends.symm.trans (Effect.sends_of_looksUp (h turn hturn))

theorem countP_of_isSilent (h : IsSilent turns) : turns.countP (·.effect.sends) = 0 :=
  List.countP_eq_zero.mpr fun turn hturn => by
    simp [Effect.sends_of_looksUp (h turn hturn)]

/-- A telling that ends in one of the two ways does just that.

If nothing was sent, then something is missing, and nothing is claimed about a message. If one was
sent, it is the last turn and the only one that is no look-up. -/
theorem told_of_ended {result : Except Error Estimate} (h : Ended refused st c e p turns result) :
    Told refused st c e p turns result := by
  cases h with
  | silent err hturns hmissing =>
    refine ⟨fun turn h => .inl (hturns turn h), by simp [countP_of_isSilent hturns],
      fun turn hturn hsends => ?_, fun _ _ _ _ ready => absurd ready (hmissing _ _ _ _), ?_,
      fun _ h => by cases h⟩
    · cases hsends.symm.trans (Effect.sends_of_looksUp (hturns turn hturn))
    · exact iff_of_false (fun ⟨_, h⟩ => by cases h) fun ⟨m, h⟩ => not_mem_of_isSilent hturns m h
  | @told first event target participant sample hfirst ready answer =>
    have hlast : (⟨st, .request (.send (.eta event participant
        (Estimate.ofSample sample target c.averageSpeedKmh).etaMinutes)), answer, st⟩ :
          Turn Stores) ∈ first ++ [⟨st, .request (.send (.eta event participant
            (Estimate.ofSample sample target c.averageSpeedKmh).etaMinutes)), answer, st⟩] :=
      List.mem_append_right _ (List.mem_singleton_self _)
    refine ⟨fun turn hturn => ?_, ?_, fun turn hturn hsends => ?_,
      fun _ _ _ _ _ => ⟨_, hlast, rfl⟩, ?_, ?_⟩
    · obtain hturn | hturn := List.mem_append.mp hturn
      · exact .inl (hfirst turn hturn)
      · obtain rfl := List.mem_singleton.mp hturn
        exact .inr rfl
    · rw [List.countP_append, countP_of_isSilent hfirst]
      simp [Effect.sends]
    · obtain hturn | hturn := List.mem_append.mp hturn
      · cases hsends.symm.trans (Effect.sends_of_looksUp (hfirst turn hturn))
      · obtain rfl := List.mem_singleton.mp hturn
        exact ⟨event, target, participant, sample, ready, rfl⟩
    · cases answer with
      | ok _ => exact iff_of_true ⟨_, rfl⟩ ⟨_, List.mem_map_of_mem hlast⟩
      | error err =>
        refine iff_of_false (fun ⟨_, h⟩ => by cases h) fun ⟨m, h⟩ => ?_
        rw [List.map_append, List.mem_append] at h
        obtain h | h := h
        · exact not_mem_of_isSilent hfirst m h
        · cases List.mem_singleton.mp h
    · intro estimate hok
      cases answer with
      | error err => cases hok
      | ok _ =>
        obtain rfl := Except.ok.inj hok
        exact ⟨event, target, ready.found, ready.place,
          comesTo_ofParticipant c ready.valid (comesTo_latest_iff.mp ready.located)⟩

/-- **Nobody is told what is not so**, whichever calls fail: a telling comes to an end, it leaves
the stores as they are, and it sends one message at most, which anybody can check who asks for the
location. And there is no estimate exactly if there is no location. -/
theorem send_grounded (refused : Request → Prop) (st : Stores) (c : EtaConfig) (e p : String) :
    ((∃ turns result st', Work.Runs (still refused) st (send c e p).run turns result st') ∧
      ∀ turns result st', Work.Runs (still refused) st (send c e p).run turns result st' →
        st' = st ∧ Told refused st c e p turns result) ∧
      ∀ target : Coordinate, target.validate = .ok () →
        ¬ refused (.cache (.get (Cache.Key.location e p))) → ¬ refused (.trail (.latest e p)) →
        ∃ result, ComesTo refused st (ofParticipant c e p target).run result ∧
          ((∃ kind id, result = .error (.notFound kind id)) ↔
            (∀ bytes, st.cache.get? st.clock (Cache.Key.location e p) = some bytes →
              Sample.ofBytes? bytes = none) ∧
            ∀ s ∈ st.trail.samples, ¬ (s.eventId = e ∧ s.participantId = p)) := by
  refine ⟨⟨Stores.exists_run (fun _ => rfl) refused _ st, fun turns result st' run => ?_⟩,
    fun target hvalid hget htrail => ?_⟩
  · obtain ⟨rfl, hended⟩ := ended_of_runs run
    exact ⟨rfl, told_of_ended hended⟩
  · exact ⟨_, comesTo_ofParticipant c hvalid (Stores.locates_of_reads hget htrail),
      missing_iff c target⟩

/-- The participant whose cached location cannot be read is told by the one in the history. -/
theorem send_grounded_of_corrupted :
    (∃ turns result, Work.Runs (still fun _ => False) corrupted (send {} "e" "p").run turns result
      corrupted ∧ Told (fun _ => False) corrupted {} "e" "p" turns result ∧
      ∃ turn ∈ turns, turn.effect.sends = true) ∧
      Coordinate.validate ⟨0, 0⟩ = .ok () ∧
      ∃ result, ComesTo (fun _ => False) corrupted (ofParticipant {} "e" "p" ⟨0, 0⟩).run result ∧
        ¬ ∃ kind id, result = .error (.notFound kind id) := by
  have hplace : Coordinate.validate ⟨0, 0⟩ = .ok () := by decide +kernel
  have hcorrupt : corrupted.cached? "e" "p" = none := by decide +kernel
  have ready : Ready (fun _ => False) corrupted "e" "p"
      ⟨"e", "o", "", .scheduled, .epoch, none, some ⟨0, 0⟩⟩ ⟨0, 0⟩
      ⟨"p", "e", "o", "", "", .confirmed⟩ (.ofPlace "e" "p" .epoch) :=
    ⟨id, rfl, rfl, hplace, id, rfl, rfl, comesTo_latest_iff.mpr (.history (.inr hcorrupt) id)⟩
  obtain ⟨⟨⟨turns, result, st', run⟩, htold⟩, hestimate⟩ :=
    send_grounded (fun _ => False) corrupted {} "e" "p"
  obtain ⟨rfl, told⟩ := htold turns result st' run
  obtain ⟨estimate, hcomes, hmissing⟩ := hestimate ⟨0, 0⟩ hplace id id
  refine ⟨⟨turns, result, run, told, told.complete _ _ _ _ ready⟩, hplace, estimate, hcomes, ?_⟩
  exact fun h => (hmissing.mp h).2 _ (List.mem_singleton_self _) ⟨rfl, rfl⟩

end Forecast

end Gathering
