import Gathering.Proofs.Location.Tracking
import Gathering.Proofs.Program.Pool
import Gathering.Proofs.Program.Trace
import Gathering.Proofs.Store.Stores

/-!
# The history comes first

When a report is taken in, many things can go wrong: the report may be unsound, the
history may refuse its sample, the event cannot be looked up, the cache does not
answer or does not take what is written. Only the first two count. Then the report
is refused, and the history and the cache are as they were. In all other cases the
report is accepted: the history has grown by its sample at the end, and in the cache
nothing else than the entry of its participant may have changed
(`Tracking.outcome_of_runs`).

Since nothing is appended but samples of sound reports, every sample of the history
is sound, however many programs run at the same time (`Tracking.isSound_of_steps`).
-/

namespace Gathering

open Cache (TimedMap)

/-! ## What is left alone

Others may do anything to the events and participants, and time may pass, while a report is taken
in. They leave the history and the cache alone, since otherwise it could not be said what the
report has done to these. -/

namespace Stores

/-- **The history and the cache are left alone**, whatever else happens. -/
structure KeepsBoth (st st' : Stores) : Prop where
  /-- The cache is the same. -/
  cache : st'.cache = st.cache
  /-- The history is the same. -/
  trail : st'.trail = st.trail

/-- **The history and all entries of the cache but one are left alone.** -/
structure KeepsBut (key : String) (st st' : Stores) : Prop where
  /-- The other entries are the same. -/
  entries : ∀ k, k ≠ key → st'.cache.entries.find? k = st.cache.entries.find? k
  /-- The history is the same. -/
  trail : st'.trail = st.trail

variable {fails : Request → Prop} {st st₁ st₂ st' : Stores} {key : String}

theorem KeepsBoth.refl (st : Stores) : KeepsBoth st st := ⟨rfl, rfl⟩

theorem KeepsBoth.trans (h : KeepsBoth st st₁) (h' : KeepsBoth st₁ st') : KeepsBoth st st' :=
  ⟨h'.cache.trans h.cache, h'.trail.trans h.trail⟩

theorem KeepsBut.refl (st : Stores) : KeepsBut key st st := ⟨fun _ _ => rfl, rfl⟩

theorem KeepsBut.meanwhile (h : KeepsBut key st st₁) (h' : KeepsBoth st₁ st₂) :
    KeepsBut key st st₂ :=
  ⟨fun k hk => by rw [h'.cache, h.entries k hk], h'.trail.trans h.trail⟩

/-- The effects that leave the history and all entries of the cache but one alone. -/
def Refreshes (key : String) : Effect → Prop
  | .request (.cache (.get _)) => True
  | .request (.cache (.set k _ _)) => k = key
  | .request (.cache _) | .request (.trail _) => False
  | _ => True

/-- **Refreshing an entry leaves the others alone.** -/
theorem KeepsBut.answers {e : Effect} {answer : e.Answer} (hallows : Refreshes key e)
    (h : KeepsBut key st st₁) (hanswers : Answers fails st₁ e answer st₂) :
    KeepsBut key st st₂ := by
  cases hanswers with
  | cache call =>
    cases call with
    | get => exact ⟨h.entries, h.trail⟩
    | set k value ttl =>
      obtain rfl : k = key := hallows
      refine ⟨fun k' hk' => ?_, h.trail⟩
      rw [← h.entries k' hk']
      exact (TimedMap.find?_set ttl k').trans (if_neg hk')
    | ping | getMany | scan | delete | expire => exact hallows.elim
  | roster => exact ⟨h.entries, h.trail⟩
  | trail => exact hallows.elim
  | cacheFails | rosterFails | trailFails | elsewhere => exact h

end Stores

/-! ## One report

A report that was appended can no more be refused: what is left to do is to refresh the cache, and
that cannot fail. -/

namespace Tracking

open Stores (KeepsBoth KeepsBut Refreshes)

variable {fails : Request → Prop} {c : LocationConfig} {r : Report} {st st' : Stores}
  {turns : List (Turn Stores)} {result : Except Error Sample}

/-- What is left of taking in a report once its sample is appended. -/
def refresh (c : LocationConfig) (s : Sample) (now : Instant) : Work (Except Error Sample) := do
  let until_ ← lifetimeEnd c s.eventId now
  let _ ← (cacheLatest s until_).run
  return .ok s

/-- It refreshes the entry of the sample's participant, and cannot fail. -/
theorem refresh_obeys (c : LocationConfig) (s : Sample) (now : Instant) :
    (refresh c s now).Obeys (.always (Refreshes (Cache.Key.location s.eventId s.participantId)))
      (fun result _ => result = .ok s) () :=
  Work.Obeys.bind (lifetimeEnd_asks c now trivial) fun until_ _ _ =>
    Work.Obeys.bind (Job.Asks.run (cacheLatest_asks until_ trivial trivial fun _ => rfl))
      fun _ _ _ => rfl

/-- **What has come of a report** that was taken in. -/
structure Outcome (r : Report) (st : Stores) (turns : List (Turn Stores))
    (result : Except Error Sample) (st' : Stores) : Prop where
  /-- The result is an error exactly if the report is unsound or could not be appended; then it is
  that error. -/
  error_iff : ∀ err, result = .error err ↔ r.check = .error err ∨
    ∃ s, ⟨.request (.trail (.append s)), .error err⟩ ∈ turns.map (·.deed)
  /-- A report that is refused leaves the history and the cache as they were. -/
  refused : ∀ err, result = .error err → st'.trail = st.trail ∧ st'.cache = st.cache
  /-- A report that is accepted adds its sample at the end of the history, and may change the entry
  of its participant in the cache. -/
  accepted : ∀ s, result = .ok s → (∃ now, r.toSample now = .ok s) ∧
    st'.trail.samples = st.trail.samples ++ [s] ∧
    ∀ key, key ≠ Cache.Key.location r.eventId r.participantId →
      st'.cache.entries.find? key = st.cache.entries.find? key

/-- What refreshing the cache comes to. -/
theorem kept_of_runs (c : LocationConfig) (s : Sample) (now : Instant)
    (run : Work.Runs (Stores.shared fails KeepsBoth) st (refresh c s now) turns result st') :
    result = .ok s ∧ KeepsBut (Cache.Key.location s.eventId s.participantId) st st' ∧
      ∀ turn ∈ turns, Refreshes (Cache.Key.location s.eventId s.participantId) turn.effect := by
  obtain ⟨⟨_, hresult, hkept⟩, hturns⟩ := run.keeps
    (I := fun _ => KeepsBut (Cache.Key.location s.eventId s.participantId) st)
    (refresh_obeys c s now) (fun _ _ _ => .meanwhile) (fun _ _ _ _ _ => .answers) (.refl st)
  exact ⟨hresult, hkept, fun turn hturn => (hturns turn hturn).elim fun _ h => h.1⟩

/-- **What comes of a report, whichever calls fail.**

The run is followed up to the answer of the history. If the report is unsound, that call is never
made; if it fails, the run ends; and if it succeeds, the rest is `Tracking.refresh`, which has a
protocol of its own. -/
theorem outcome_of_runs
    (run : Work.Runs (Stores.shared fails KeepsBoth) st (record c r).run turns result st') :
    Outcome r st turns result st' := by
  rw [run_record] at run
  obtain ⟨st₁, now, st₂, rest, rfl, others, answered, hrest⟩ := Work.runs_call_iff.mp run
  clear run
  obtain rfl := answered.eq_of_isElsewhere rfl
  cases hsample : r.toSample now with
  | error e =>
    rw [hsample] at hrest
    obtain ⟨rfl, rfl, rfl⟩ := Work.runs_pure_iff.mp hrest
    have hcheck := Report.toSample_eq_error_iff.mp hsample
    refine ⟨fun err => ?_, fun _ _ => ⟨others.trail, others.cache⟩, fun _ h => by cases h⟩
    simp [hcheck, Turn.deed]
  | ok s =>
    rw [hsample] at hrest
    obtain ⟨st₃, appended, st₄, rest, rfl, others', answered', hrest⟩ :=
      Work.runs_call_iff.mp hrest
    obtain ⟨hcheck, he, hp⟩ := Report.toSample_eq_ok hsample
    have hboth : KeepsBoth st st₃ := KeepsBoth.trans others others'
    cases answered' with
    | elsewhere h => cases h
    | trailFails _ e =>
      obtain ⟨rfl, rfl, rfl⟩ := Work.runs_pure_iff.mp hrest
      refine ⟨fun err => ?_, fun _ _ => ⟨hboth.trail, hboth.cache⟩, fun _ h => by cases h⟩
      simp [hcheck, Turn.deed, eq_comm]
    | trail =>
      obtain ⟨rfl, hkept, hturns⟩ := kept_of_runs c s now hrest
      refine ⟨fun err => iff_of_false (fun h => by cases h) ?_, fun _ h => (by cases h), ?_⟩
      · rintro (herr | ⟨s', hmem⟩)
        · rw [hcheck] at herr
          cases herr
        · -- the sample was appended without an error, and nothing is appended afterwards
          simp only [List.map_cons, List.mem_cons, List.mem_map, Turn.deed] at hmem
          rcases hmem with hnow | happended | ⟨turn, hturn, hdeed⟩
          · cases hnow
          · cases happended
          · have hrefreshes := hturns turn hturn
            rw [show turn.effect = .request (.trail (.append s')) from congrArg (·.1) hdeed]
              at hrefreshes
            exact hrefreshes
      · rintro _ ⟨⟩
        refine ⟨⟨now, hsample⟩, ?_, fun key hkey => ?_⟩
        · rw [hkept.trail, ← hboth.trail]
          rfl
        · rw [hkept.entries key (by rwa [he, hp]), ← hboth.cache]

/-! ## All programs

Of the programs that run it is assumed that they append samples only by taking in reports. This is
the only place of the service where the history is written to. -/

/-- The effects that append nothing but sound samples. -/
def AppendsSound (e : Effect) : Prop := ∀ s, e = .request (.trail (.append s)) → s.IsSound

/-- **Any program**, as far as the history goes: it takes in a report, or it appends nothing. -/
def Appending (p : Work Unit) : Prop :=
  (∃ c r, p = (fun _ => ()) <$> (record c r).run) ∨
    p.Asks fun e => ∀ s, e ≠ .request (.trail (.append s))

/-- Nothing is appended but sound samples. -/
theorem Appending.asks {p : Work Unit} (h : Appending p) : p.Asks AppendsSound := by
  rcases h with ⟨c, r, rfl⟩ | h
  · rw [← bind_pure_comp]
    refine Work.Obeys.bind (Job.Asks.run (record_asks c ?_ ?_ ?_ ?_ ?_)) fun _ _ _ => trivial
    · rintro _ ⟨⟩
    · rintro now s hs _ ⟨⟩
      exact Report.isSound_of_toSample hs
    · rintro _ ⟨⟩
    · rintro _ ⟨⟩
    · rintro _ _ _ _ _ ⟨⟩
  · exact h.mono fun e hnot s he => absurd he (hnot s)

/-- **The history is left alone**, whatever else happens. -/
def KeepsTrail (st st' : Stores) : Prop := st'.trail = st.trail

/-- A sample of the history was there before, or was appended just now. -/
theorem mem_samples_of_answers {e : Effect} {answer : e.Answer}
    (h : Stores.Answers fails st e answer st') {s : Sample} (hs : s ∈ st'.trail.samples) :
    s ∈ st.trail.samples ∨ e = .request (.trail (.append s)) := by
  cases h with
  | trail call =>
    cases call with
    | append a =>
      rcases List.mem_append.mp hs with hold | hnew
      · exact .inl hold
      · exact .inr (by rw [List.mem_singleton.mp hnew])
    | latest | latestOfParticipant | history => exact .inl hs
  | cache | cacheFails | roster | rosterFails | trailFails | elsewhere => exact .inl hs

/-- **Every sample of the history is sound**, after any number of steps of any programs.

The invariant is that all samples are sound. An effect keeps it if it appends nothing but sound
samples, and that is so for every program that is allowed here. -/
theorem isSound_of_steps {pool : Pool Stores} (hempty : st.trail = .empty)
    (hsteps : Pool.Steps (Stores.shared fails KeepsTrail) Appending ⟨st, []⟩ pool) :
    ∀ s ∈ pool.state.trail.samples, s.IsSound := by
  have hkeeps : Pool.Keeps (fun st => ∀ s ∈ st.trail.samples, s.IsSound) AppendsSound
      (⟨st, []⟩ : Pool Stores) := by
    refine ⟨fun s hs => ?_, fun _ h => by cases h⟩
    rw [hempty] at hs
    cases hs
  refine (hkeeps.steps (fun _ => Appending.asks) ?_ ?_ hsteps).state
  · intro st st' hsound (hothers : st'.trail = st.trail)
    rwa [hothers]
  · intro st e answer st' hallows hsound hanswers s hs
    rcases mem_samples_of_answers hanswers hs with hold | happended
    · exact hsound s hold
    · exact hallows s happended

/-- **The history comes first.** Whichever calls fail, a report ends in an error exactly if it is
unsound or its sample could not be appended, and then nothing has changed; otherwise the history
has grown by its sample, and no other entry of the cache has changed than that of its participant.
Whichever calls fail, there is such an end. So whatever programs run, in any number and in any
order, from an empty history on every sample of the history is sound. -/
theorem record_durable :
    (∀ (c : LocationConfig) (r : Report) (fails : Request → Prop) (st st' : Stores)
      (turns : List (Turn Stores)) (result : Except Error Sample),
      Work.Runs (Stores.shared fails KeepsBoth) st (record c r).run turns result st' →
      Outcome r st turns result st') ∧
    (∀ (c : LocationConfig) (r : Report) (refused : Request → Prop) (st : Stores),
      ∃ turns result st',
        Work.Runs (Stores.shared refused KeepsBoth) st (record c r).run turns result st' ∧
        ∀ turn ∈ turns, ∀ req, turn.effect = .request req → turn.effect.isElsewhere = false →
          refused req → Stores.Fails turn.effect turn.answer) ∧
    ∀ (fails : Request → Prop) (st : Stores) (pool : Pool Stores), st.trail = .empty →
      Pool.Steps (Stores.shared fails KeepsTrail) Appending ⟨st, []⟩ pool →
      ∀ s ∈ pool.state.trail.samples, s.IsSound :=
  ⟨fun _ _ _ _ _ _ _ => outcome_of_runs,
    fun c r refused => Stores.exists_runs_failing .refl refused (record c r).run,
    fun _ _ _ => isSound_of_steps⟩

/-- Where no event can be looked up and the cache is down, a place is accepted all the same. -/
theorem record_place_without_cache :
    ∃ turns s st', Work.Runs (Stores.shared (fun req => ∀ call, req ≠ .trail call) KeepsBoth) .empty
      (record {} (.ofPlace "e" "p" none)).run turns (.ok s) st' ∧
      (∃ now, s = .ofPlace "e" "p" now) ∧ st'.trail.samples = [s] ∧ s.IsSound := by
  obtain ⟨houtcome, hruns, hsound⟩ := record_durable
  obtain ⟨turns, result, st', run, -⟩ :=
    hruns {} (.ofPlace "e" "p" none) (fun req => ∀ call, req ≠ .trail call) .empty
  obtain ⟨herror, -, haccepted⟩ := houtcome _ _ _ _ _ _ _ run
  have he : Text.isBlank "e" = false := by decide +kernel
  have hp : Text.isBlank "p" = false := by decide +kernel
  have hplace (now : Instant) := Report.toSample_ofPlace he hp none now
  cases result with
  | error err =>
    rcases (herror err).mp rfl with hcheck | ⟨s, hmem⟩
    · rw [(Report.toSample_eq_ok (hplace .epoch)).1] at hcheck
      cases hcheck
    · obtain ⟨⟨before, _, _, after⟩, hturn, hdeed⟩ := List.mem_map.mp hmem
      cases hdeed
      cases ((run.answered _ hturn).of_trail fun h => h _ rfl).1
  | ok s =>
    obtain ⟨⟨now, hsample⟩, hsamples, -⟩ := haccepted s rfl
    rw [hplace now] at hsample
    have happending : Appending ((fun _ => ()) <$> (record {} (.ofPlace "e" "p" none)).run) :=
      .inl ⟨_, _, rfl⟩
    have hreaches : Work.Reaches (Stores.shared (fun req => ∀ call, req ≠ .trail call) KeepsTrail)
        .empty (record {} (.ofPlace "e" "p" none)).run (.ok s) st' :=
      ⟨turns, run.mono (fun _ _ h => h.trail) (fun _ _ _ _ h => h)⟩
    have hsteps := Pool.steps_of_call happending (hreaches.map fun _ => ()) []
    refine ⟨turns, s, st', run, ⟨now, (Except.ok.inj hsample).symm⟩, hsamples, ?_⟩
    exact hsound _ _ _ rfl hsteps s (hsamples ▸ List.mem_singleton_self s)

end Tracking

end Gathering
