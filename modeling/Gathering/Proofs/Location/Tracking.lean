import Gathering.Location.Tracking
import Gathering.Proofs.Location.Sample
import Gathering.Proofs.Program.Run

/-!
# Taking in a report, effect by effect

A report is taken in by a job, and what a job does is said by its program. Here
the program is written out (`Tracking.run_record`, `Tracking.run_cacheLatest`):
which effect comes after which answer, with the errors as values. What holds of
all runs is read off from these two equations. And where it only matters what is
asked for, it is enough that each of the effects is allowed
(`Tracking.record_asks`). No other proof opens the jobs.
-/

namespace Gathering.Tracking

/-- **How a report is taken in.**

From the answer of the history on there is no error any more: the end of the lifetime has a
default where the event cannot be looked up, and the result of caching is dropped. -/
theorem run_record (c : LocationConfig) (r : Report) :
    (record c r).run = (do
      let now ← Work.now
      match r.toSample now with
      | .error e => return .error e
      | .ok sample =>
        match ← Work.request (.trail (.append sample)) with
        | .error e => return .error e
        | .ok _ =>
          let until_ ← lifetimeEnd c sample.eventId now
          let _ ← (cacheLatest sample until_).run
          return .ok sample) := by
  unfold record
  simp only [Job.now, ExceptT.run_bind_lift]
  refine congrArg (Work.now >>= ·) (funext fun now => ?_)
  cases r.toSample now with
  | error e => rfl
  | ok s =>
    refine congrArg (Work.request (.trail (.append s)) >>= ·) (funext fun answer => ?_)
    cases answer with
    | error e => rfl
    | ok _ =>
      show ExceptT.run (do
        let until_ ← ExceptT.lift (lifetimeEnd c s.eventId now)
        let _ ← ExceptT.lift (cacheLatest s until_).run
        return s) = _
      simp only [ExceptT.run_bind_lift]
      rfl

/-- **How a location is cached.** Where nothing is left of its lifetime, the cache is not even
asked. -/
theorem run_cacheLatest (s : Sample) (until_ : Instant) :
    (cacheLatest s until_).run = (do
      let now ← Work.now
      match until_.remaining now with
      | none => return .ok ()
      | some ttl =>
        let cached ← cached? (Cache.Key.location s.eventId s.participantId)
        if isNewer cached s then return .ok ()
        else
          Work.request (.cache
            (.set (Cache.Key.location s.eventId s.participantId) s.toBytes (some ttl)))) := by
  unfold cacheLatest
  simp only [Job.now, ExceptT.run_bind_lift]
  refine congrArg (Work.now >>= ·) (funext fun now => ?_)
  cases until_.remaining now with
  | none => rfl
  | some ttl =>
    simp only [ExceptT.run_bind_lift]
    refine congrArg (cached? (Cache.Key.location s.eventId s.participantId) >>= ·)
      (funext fun cached => ?_)
    cases isNewer cached s <;> rfl

/-- **How the latest location is found.** -/
theorem run_latest (eventId participantId : String) :
    (latest eventId participantId).run = (do
      match ← cached? (Cache.Key.location eventId participantId) with
      | some sample => return .ok (some sample)
      | none => Work.request (.trail (.latest eventId participantId))) := by
  unfold latest
  simp only [ExceptT.run_bind_lift]
  refine congrArg (cached? (Cache.Key.location eventId participantId) >>= ·)
    (funext fun cached => ?_)
  cases cached <;> rfl

/-- **How the latest locations of several participants are found.** -/
theorem run_latestOfEach (eventId : String) (ids : List String) :
    (latestOfEach eventId ids).run = (do
      match ← Work.request (.cache (.getMany (ids.map (Cache.Key.location eventId)))) with
      | .ok values => (fillIn eventId (ids.zip values)).run
      | .error _ => (fillIn eventId (ids.zip (ids.map fun _ => none))).run) := by
  unfold latestOfEach
  simp only [ExceptT.run_bind_lift]
  refine congrArg (Work.request (.cache (.getMany (ids.map (Cache.Key.location eventId)))) >>= ·)
    (funext fun answer => ?_)
  cases answer <;> rfl

/-! ## What is asked for

The conditions under which a program keeps to allowed effects are stated effect by effect, so that
they can be used with every set of allowed effects. -/

variable {allows : Effect → Prop}

theorem lifetimeEnd_asks (c : LocationConfig) {eventId : String} (now : Instant)
    (hevent : allows (.request (.roster (.getEvent eventId)))) :
    (lifetimeEnd c eventId now).Asks allows := by
  refine Work.Obeys.call hevent fun answer => ?_
  match answer with
  | .ok (some _) | .ok none | .error _ => trivial

theorem cached?_asks {key : String} (hget : allows (.request (.cache (.get key)))) :
    (cached? key).Asks allows := by
  refine Work.Obeys.call hget fun answer => ?_
  match answer with
  | .ok (some _) | .ok none | .error _ => trivial

/-- **What caching a location asks for**: the time and the entry of the location. -/
theorem cacheLatest_asks {s : Sample} (until_ : Instant) (hnow : allows (.request .now))
    (hget : allows (.request (.cache (.get (Cache.Key.location s.eventId s.participantId)))))
    (hset : ∀ ttl, allows (.request
      (.cache (.set (Cache.Key.location s.eventId s.participantId) s.toBytes (some ttl))))) :
    (cacheLatest s until_).Asks allows := by
  refine Job.Obeys.lift hnow fun now => ?_
  split
  · refine Job.Obeys.liftBind (cached?_asks hget) fun cached _ _ => ?_
    split
    · trivial
    · exact Job.Asks.cache (hset _)
  · trivial

/-- **What taking in a report asks for**: the time, and for its sample the end of the history, the
event and the entry in the cache. -/
theorem record_asks (c : LocationConfig) {r : Report} (hnow : allows (.request .now))
    (happend : ∀ now s, r.toSample now = .ok s → allows (.request (.trail (.append s))))
    (hevent : allows (.request (.roster (.getEvent r.eventId))))
    (hget : allows (.request (.cache (.get (Cache.Key.location r.eventId r.participantId)))))
    (hset : ∀ now s, r.toSample now = .ok s → ∀ ttl, allows (.request
      (.cache (.set (Cache.Key.location s.eventId s.participantId) s.toBytes (some ttl))))) :
    (record c r).Asks allows := by
  refine Job.Obeys.lift hnow fun now => ?_
  refine Job.Obeys.checked (fun s hs => ?_) fun _ _ => trivial
  obtain ⟨-, he, hp⟩ := Report.toSample_eq_ok hs
  rw [← he] at hevent hget
  rw [← hp] at hget
  refine Job.Obeys.trail (happend now s hs) (fun _ => ?_) fun _ => trivial
  refine Job.Obeys.liftBind (lifetimeEnd_asks c now hevent) fun until_ _ _ => ?_
  exact Job.Obeys.liftBind (Job.Asks.run (cacheLatest_asks until_ hnow hget (hset now s hs)))
    fun _ _ _ => trivial

end Gathering.Tracking
