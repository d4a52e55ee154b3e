import Gathering.Proofs.Location.Freshness
import Gathering.Proofs.Program.Trace

/-!
# The cache and the history pick the same sample

The latest location is found in two ways. The history looks at all its samples and
takes the last one of the latest. The cache sees one sample at a time and compares
it with the one that it holds. Both let the later arrival win when two samples were
taken at the same time, and so they pick the very same sample
(`Tracking.cached_eq_latest`), not only samples of the same time – as long as

* the cache answers, and the lifetime of every sample was not over,
* what others do leaves alone what can be read about the participant
  (`Stores.Alike`), so that an entry that was written stays,
* and the samples are read back as they were written. A float that its text does
  not give back would be another one in the cache.

One step of the one is one step of the other: the entry that a report leaves is
`Trail.later` of the entry from before and the sample of the report, and the
history is folded with the same function.
-/

namespace Gathering

namespace Stores

variable {e p : String} {st st' st'' : Stores}

/-- **What can be read about a participant stays the same**: the location that is cached, which so
neither lapses nor changes, and the history. -/
structure Alike (e p : String) (st st' : Stores) : Prop where
  /-- The cached location. -/
  cached : st'.cached? e p = st.cached? e p
  /-- The history. -/
  samples : st'.trail.of e p = st.trail.of e p

theorem Alike.refl (st : Stores) : Alike e p st st := ⟨rfl, rfl⟩

theorem Alike.trans (h : Alike e p st st') (h' : Alike e p st' st'') : Alike e p st st'' :=
  ⟨h'.cached.trans h.cached, h'.samples.trans h.samples⟩

/-- **The cache holds what the history picks**, or both have nothing. -/
def Agrees (e p : String) (st : Stores) : Prop := st.cached? e p = st.trail.latest e p

theorem Agrees.alike (h : st.Agrees e p) (halike : Alike e p st st') : st'.Agrees e p := by
  have hlatest : Trail.latestOf (st'.trail.of e p) = Trail.latestOf (st.trail.of e p) :=
    congrArg Trail.latestOf halike.samples
  exact halike.cached.trans (h.trans hlatest.symm)

/-- Before anything is recorded, both have nothing. -/
theorem agrees_of_nothing (hcached : st.cached? e p = none) (hsamples : st.trail.of e p = []) :
    st.Agrees e p := by
  have hlatest : Trail.latestOf (st.trail.of e p) = none := congrArg Trail.latestOf hsamples
  exact hcached.trans hlatest.symm

/-- **One more sample** in both. -/
theorem Agrees.grown {s : Sample} (h : st.Agrees e p)
    (hcached : st'.cached? e p = Trail.later (st.cached? e p) s)
    (hsamples : st'.trail.of e p = st.trail.of e p ++ [s]) : st'.Agrees e p := by
  have hlatest : Trail.latestOf (st'.trail.of e p) = Trail.later (st.trail.latest e p) s := by
    rw [hsamples, Trail.latestOf_append]
    rfl
  rw [h] at hcached
  exact hcached.trans hlatest.symm

/-- A sample that is cached for a while is found as it can be read. -/
theorem cached?_cached (st : Stores) (s : Sample) {ttl : Span} (hpos : 0 < ttl.nanos) :
    (st.cached s ttl).cached? s.eventId s.participantId = Sample.ofBytes? s.toBytes :=
  congrArg (Option.bind · Sample.ofBytes?) (st.get?_cached s hpos)

end Stores

theorem Instant.nanos_pos_of_remaining {until_ now : Instant} {ttl : Span}
    (h : until_.remaining now = some ttl) : 0 < ttl.nanos := by
  unfold remaining at h
  dsimp only at h
  split at h
  · cases h
  · next hleft =>
    cases h
    exact Nat.lt_min.mpr ⟨by omega, by decide⟩

theorem Report.isOf_of_toSample {r : Report} {now : Instant} {s : Sample}
    (h : r.toSample now = .ok s) : s.isOf r.eventId r.participantId = true :=
  Sample.isOf_iff.mpr (Report.toSample_eq_ok h).2

namespace Tracking

open Stores (Alike)

variable {fails : Request → Prop} {e p : String} {st st' : Stores} {s : Sample}
  {turns : List (Turn Stores)}

/-! ## One report

The cache is looked at before and after. What is in between is the same whichever way the report
goes: its sample is appended, the end of its lifetime is looked up, and then the cache is asked
what it holds. -/

/-- **What the cache keeps** of a location that it holds and a sample: the location if it is newer,
and otherwise what can be read of the sample. -/
def kept (cached : Option Sample) (s : Sample) : Option Sample :=
  if isNewer cached s then cached else Sample.ofBytes? s.toBytes

/-- A sample that is read back is kept unless it is the earlier one. -/
theorem kept_eq_later (cached : Option Sample) {s : Sample}
    (hread : Sample.ofBytes? s.toBytes = some s) : kept cached s = Trail.later cached s := by
  unfold kept
  rw [hread]
  cases cached with
  | none => rfl
  | some b =>
    unfold Trail.later isNewer
    simp only [decide_eq_true_eq]

/-- **Until when a sample is cached**, as the store of events has answered. -/
def endOf (c : LocationConfig) (now : Instant) (answer : Except Error (Option Event)) : Instant :=
  (answer.toOption.join.bind (·.endsAt)).getD (now.add c.defaultTtl)

/-- **How the end of a lifetime is looked up.** -/
theorem lifetimeEnd_eq (c : LocationConfig) (eventId : String) (now : Instant) :
    lifetimeEnd c eventId now =
      (do return endOf c now (← Work.request (.roster (.getEvent eventId)))) := by
  refine congrArg (Work.request (.roster (.getEvent eventId)) >>= ·) (funext fun answer => ?_)
  match answer with
  | .ok (some event) =>
    cases hend : event.endsAt <;> simp [endOf, hend, Except.toOption]
  | .ok none | .error _ => rfl

/-- **What caching a sample does while the cache answers.**

The cache is asked for what it holds and is told what to keep, and others leave the entry alone
between the two. So the comparison that is made is the one with the entry from before. -/
theorem entry_of_runs {until_ : Instant} {r : Except Error Unit}
    (hanswers : ∀ call, ¬ fails (.cache call))
    (run : Work.Runs (Stores.shared fails (Alike s.eventId s.participantId)) st
      (cacheLatest s until_).run turns r st') :
    ∃ now rest, turns.map (·.deed) = ⟨.request .now, now⟩ :: rest ∧
      st'.trail.of s.eventId s.participantId = st.trail.of s.eventId s.participantId ∧
      ∀ ttl, until_.remaining now = some ttl →
        st'.cached? s.eventId s.participantId = kept (st.cached? s.eventId s.participantId) s := by
  rw [run_cacheLatest] at run
  obtain ⟨st₁, now, st₂, rest, rfl, others, answered, hrest⟩ := Work.runs_call_iff.mp run
  obtain rfl := answered.eq_of_isElsewhere rfl
  refine ⟨now, rest.map (·.deed), rfl, ?_⟩
  cases hremaining : until_.remaining now with
  | none =>
    rw [hremaining] at hrest
    cases hrest
    exact ⟨others.samples, fun _ h => by cases h⟩
  | some ttl =>
    rw [hremaining] at hrest
    obtain ⟨first, last, cached, st₃, rfl, hread, hlast⟩ := Work.runs_bind_iff.mp hrest
    obtain ⟨others', hcached⟩ := runs_cached?_answering hanswers hread
    have halike := others.trans others'
    replace hcached : cached = st.cached? s.eventId s.participantId :=
      hcached.trans halike.cached
    rw [← hcached]
    unfold kept
    cases hnewer : isNewer cached s with
    | true =>
      rw [if_pos hnewer] at hlast
      cases hlast
      exact ⟨halike.samples, fun _ _ => halike.cached.trans hcached.symm⟩
    | false =>
      rw [if_neg (by simp [hnewer])] at hlast
      cases hlast with
      | ask others'' answered' hdone =>
        cases hdone
        obtain ⟨-, rfl⟩ := answered'.of_cache (hanswers _)
        refine ⟨others''.samples.trans halike.samples, fun _ _ => ?_⟩
        exact Stores.cached?_cached _ s (Instant.nanos_pos_of_remaining hremaining)

/-- **The deeds of a recording** up to when its sample is to be cached. -/
abbrev untilCached (s : Sample) (now : Instant) (answer : Except Error (Option Event))
    (later : Instant) : List Answered :=
  [⟨.request .now, now⟩, ⟨.request (.trail (.append s)), .ok ()⟩,
    ⟨.request (.roster (.getEvent s.eventId)), answer⟩, ⟨.request .now, later⟩]

/-- **What taking in a report does while the cache answers**: it was refused and nothing has
happened, or its sample was added to the history and, if its lifetime was not over, to the cache.

The deeds up to the caching are told as well, because from them it can be seen whether the
lifetime was over. -/
theorem grown_of_runs {c : LocationConfig} {r : Report} {result : Except Error Sample}
    (hanswers : ∀ call, ¬ fails (.cache call))
    (run : Work.Runs (Stores.shared fails (Alike r.eventId r.participantId)) st (record c r).run
      turns result st') :
    (∃ err, result = .error err ∧ Alike r.eventId r.participantId st st') ∨
      ∃ s now answer later rest, result = .ok s ∧ r.toSample now = .ok s ∧
        turns.map (·.deed) = untilCached s now answer later ++ rest ∧
        st'.trail.of r.eventId r.participantId = st.trail.of r.eventId r.participantId ++ [s] ∧
        ∀ ttl, (endOf c now answer).remaining later = some ttl →
          st'.cached? r.eventId r.participantId =
            kept (st.cached? r.eventId r.participantId) s := by
  rw [run_record] at run
  obtain ⟨st₁, now, st₂, rest, rfl, others, answered, hrest⟩ := Work.runs_call_iff.mp run
  obtain rfl := answered.eq_of_isElsewhere rfl
  cases hsample : r.toSample now with
  | error err =>
    rw [hsample] at hrest
    cases hrest
    exact .inl ⟨err, rfl, others⟩
  | ok s =>
    rw [hsample] at hrest
    obtain ⟨st₃, appended, st₄, rest, rfl, others', answered', hrest⟩ :=
      Work.runs_call_iff.mp hrest
    have halike := others.trans others'
    cases answered' with
    | trailFails h err =>
      cases hrest
      exact .inl ⟨err, rfl, halike⟩
    | elsewhere h => cases h
    | trail =>
      obtain ⟨second, rest, until_, st₅, rfl, hlifetime, hrest⟩ := Work.runs_bind_iff.mp hrest
      obtain ⟨third, last, ended, st₆, rfl, hcaching, hrest⟩ := Work.runs_bind_iff.mp hrest
      cases hrest
      rw [lifetimeEnd_eq] at hlifetime
      obtain ⟨st₇, answer, st₈, rest, rfl, others'', answered'', hrest⟩ :=
        Work.runs_call_iff.mp hlifetime
      obtain ⟨roster, rfl⟩ := answered''.of_roster
      cases hrest
      -- the sample is about those whom the report names
      have hs := Report.isOf_of_toSample hsample
      obtain ⟨-, hevent, hparticipant⟩ := Report.toSample_eq_ok hsample
      rw [← hevent, ← hparticipant] at halike others'' hs hcaching ⊢
      obtain ⟨later, rest, hdeeds, hsamples, hcached⟩ := entry_of_runs hanswers hcaching
      refine .inr ⟨s, now, answer, later, rest, rfl, hsample, ?_, ?_, fun ttl httl => ?_⟩
      · simp only [List.map_cons, List.map_append, List.append_nil, hdeeds]
        rfl
      · refine hsamples.trans (others''.samples.trans ?_)
        have hgrown := Stores.samples_appended st₃ s s.eventId s.participantId
        rw [List.filter_cons_of_pos (by exact hs), List.filter_nil, halike.samples] at hgrown
        exact hgrown
      · refine (hcached ttl httl).trans (congrArg (kept · s) ?_)
        exact others''.cached.trans halike.cached

/-! ## All reports -/

/-- **The lifetime that was found for the sample of a report was not over** when the sample was to
be cached. -/
def Intake.IsTimely (c : LocationConfig) (i : Intake) : Prop :=
  ∀ s, i.result = .ok s → ∃ now answer later rest,
    i.turns.map (·.deed) = untilCached s now answer later ++ rest ∧
      ((endOf c now answer).remaining later).isSome

/-- **A timely report keeps cache and history agreed**, and both grow by its sample. -/
theorem agrees_of_runs {c : LocationConfig} {r : Report} {result : Except Error Sample}
    (hanswers : ∀ call, ¬ fails (.cache call))
    (run : Work.Runs (Stores.shared fails (Alike r.eventId r.participantId)) st (record c r).run
      turns result st')
    (htimely : Intake.IsTimely c ⟨r, st, turns, result, st'⟩)
    (hread : ∀ s ∈ Intake.accepted r.eventId r.participantId ⟨r, st, turns, result, st'⟩,
      Sample.ofBytes? s.toBytes = some s)
    (hagrees : st.Agrees r.eventId r.participantId) :
    st'.Agrees r.eventId r.participantId ∧
      st'.trail.of r.eventId r.participantId = st.trail.of r.eventId r.participantId ++
        Intake.accepted r.eventId r.participantId ⟨r, st, turns, result, st'⟩ := by
  rcases grown_of_runs hanswers run with
    ⟨err, rfl, halike⟩ | ⟨s, now, answer, later, rest, rfl, hsample, hdeeds, hsamples, hcached⟩
  · exact ⟨hagrees.alike halike, halike.samples.trans (List.append_nil _).symm⟩
  · have haccepted : Intake.accepted r.eventId r.participantId ⟨r, st, turns, .ok s, st'⟩ = [s] :=
      List.filter_cons_of_pos (by exact Report.isOf_of_toSample hsample)
    rw [haccepted] at hread ⊢
    obtain ⟨now', answer', later', rest', hdeeds', hsome⟩ := htimely s rfl
    -- the two accounts of what was done before the sample was to be cached are the same one
    rw [show turns.map (·.deed) = _ from hdeeds] at hdeeds'
    obtain ⟨rfl, rfl, rfl, rfl⟩ :
        now = now' ∧ answer = answer' ∧ later = later' ∧ rest = rest' := by
      simpa using hdeeds'
    obtain ⟨ttl, httl⟩ := Option.isSome_iff_exists.mp hsome
    have hgrown := (hcached ttl httl).trans (kept_eq_later _ (hread s (List.mem_singleton_self s)))
    exact ⟨hagrees.grown hgrown hsamples, hsamples⟩

/-- **Timely reports keep cache and history agreed**, and both grow by what is accepted.

By induction on the reports, each of which leaves the stores for the next one. -/
theorem TakesIn.agrees {c : LocationConfig} {intakes : List Intake}
    (hanswers : ∀ call, ¬ fails (.cache call)) (hagrees : st.Agrees e p)
    (h : TakesIn (Stores.shared fails (Alike e p)) c st intakes st')
    (hown : ∀ i ∈ intakes, i.report.eventId = e ∧ i.report.participantId = p)
    (htimely : ∀ i ∈ intakes, i.IsTimely c)
    (hread : ∀ s ∈ intakes.flatMap (Intake.accepted e p), Sample.ofBytes? s.toBytes = some s) :
    st'.Agrees e p ∧
      st'.trail.of e p = st.trail.of e p ++ intakes.flatMap (Intake.accepted e p) := by
  induction h with
  | nil st => exact ⟨hagrees, (List.append_nil _).symm⟩
  | @cons r st st₁ st' turns result intakes run rest ih =>
    obtain ⟨⟨rfl, rfl⟩, hown⟩ := List.forall_mem_cons.mp hown
    obtain ⟨htimely₁, htimely⟩ := List.forall_mem_cons.mp htimely
    rw [List.flatMap_cons] at hread ⊢
    obtain ⟨hread₁, hread⟩ := List.forall_mem_append.mp hread
    obtain ⟨hagrees₁, hsamples₁⟩ := agrees_of_runs hanswers run htimely₁ hread₁ hagrees
    obtain ⟨hagrees', hsamples⟩ := ih hagrees₁ hown htimely hread
    refine ⟨hagrees', ?_⟩
    rw [hsamples, hsamples₁, List.append_assoc]

/-- **The deeds of a report that nobody disturbs**, while the clock stands still. -/
theorem exists_runs_record (fails : Request → Prop) {others : Stores → Stores → Prop}
    (hrefl : ∀ st, others st st) (c : LocationConfig) {r : Report} {now : Instant}
    (hsample : r.toSample now = .ok s) (st : Stores) :
    ∃ turns rest,
      Work.Runs (Stores.shared fails others) st (record c r).run turns (.ok s)
        ((st.appended s).refreshed s
          ((endOf c now (.ok (st.roster.event? s.eventId))).remaining now)) ∧
      turns.map (·.deed) =
        untilCached s now (.ok (st.roster.event? s.eventId)) now ++ rest := by
  have hclock : Stores.Answers fails st (.request .now) now st :=
    @Stores.Answers.elsewhere fails st (.request .now) rfl now
  have hlooked : Stores.Answers fails (st.appended s) (.request (.roster (.getEvent s.eventId)))
      (.ok (st.roster.event? s.eventId)) (st.appended s) := .roster (.getEvent s.eventId)
  obtain ⟨last, hlast⟩ := exists_runs_cacheLatest fails hrefl s
    (endOf c now (.ok (st.roster.event? s.eventId))) now (st.appended s)
  refine ⟨⟨st, .request .now, now, st⟩ ::
    ⟨st, .request (.trail (.append s)), .ok (), st.appended s⟩ ::
    ⟨st.appended s, .request (.roster (.getEvent s.eventId)), .ok (st.roster.event? s.eventId),
      st.appended s⟩ ::
    ⟨st.appended s, .request .now, now, st.appended s⟩ :: last, last.map (·.deed), ?_, rfl⟩
  rw [run_record]
  refine Work.runs_call_iff.mpr ⟨st, now, st, _, rfl, hrefl _, hclock, ?_⟩
  rw [hsample]
  refine Work.runs_call_iff.mpr ⟨st, _, _, _, rfl, hrefl _, .trail _, ?_⟩
  rw [lifetimeEnd_eq]
  refine Work.runs_call_iff.mpr ⟨_, _, _, _, rfl, hrefl _, hlooked, ?_⟩
  exact Work.runs_bind_iff.mpr ⟨_, [], _, _, (List.append_nil _).symm, hlast, .done _ _⟩

/-- **A report that nobody disturbs is timely**, where no event is known and the default lifetime
counts. -/
theorem exists_timely (fails : Request → Prop) {others : Stores → Stores → Prop}
    (hrefl : ∀ st, others st st) {r : Report} (hsample : r.toSample .epoch = .ok s)
    (hroster : st.roster = .empty) :
    ∃ turns st', Work.Runs (Stores.shared fails others) st (record {} r).run turns (.ok s) st' ∧
      Intake.IsTimely {} ⟨r, st, turns, .ok s, st'⟩ ∧ st'.roster = .empty := by
  obtain ⟨turns, rest, run, hdeeds⟩ := exists_runs_record fails hrefl {} hsample st
  refine ⟨turns, _, run, ?_, (Stores.roster_refreshed (st.appended s) s _).trans hroster⟩
  rintro _ ⟨⟩
  rw [hroster] at hdeeds
  exact ⟨.epoch, _, .epoch, rest, hdeeds, rfl⟩

/-- **The cache and the history pick the same sample.** Reports about a participant are taken in one
after another, with timestamps in any order; some of them may be refused, and the history and the
events may fail, but the cache answers. If cache and history agreed at the beginning – as they do
when nothing is recorded – then they agree in the end: the cached sample is the very one that the
history picks, which is the last one of the latest. -/
theorem cached_eq_latest {c : LocationConfig} {intakes : List Intake}
    (hanswers : ∀ call, ¬ fails (.cache call)) (hagrees : st.Agrees e p)
    (h : TakesIn (Stores.shared fails (Alike e p)) c st intakes st')
    (hown : ∀ i ∈ intakes, i.report.eventId = e ∧ i.report.participantId = p)
    (htimely : ∀ i ∈ intakes, i.IsTimely c)
    (hread : ∀ s ∈ intakes.flatMap (Intake.accepted e p), Sample.ofBytes? s.toBytes = some s)
    (hsome : intakes.flatMap (Intake.accepted e p) ≠ []) :
    ∃ s, st'.cached? e p = some s ∧ st'.trail.latest e p = some s ∧
      Sample.IsLastLatest (st.trail.of e p ++ intakes.flatMap (Intake.accepted e p)) s := by
  obtain ⟨hagrees', hsamples⟩ := h.agrees hanswers hagrees hown htimely hread
  have hlatest : st'.trail.latest e p =
      Trail.latestOf (st.trail.of e p ++ intakes.flatMap (Intake.accepted e p)) :=
    congrArg Trail.latestOf hsamples
  rcases Trail.latestOf_spec (st.trail.of e p ++ intakes.flatMap (Intake.accepted e p)) with
    ⟨hnil, -⟩ | ⟨s, -, hpicked, -⟩
  · exact absurd (List.append_eq_nil_iff.mp hnil).2 hsome
  · rw [hpicked] at hlatest
    exact ⟨s, hagrees'.trans hlatest, hlatest, Trail.isLastLatest_of_latestOf hpicked⟩

/-- **Two places of the same time, and a late one**: cache and history pick the same sample. -/
theorem cached_eq_latest_of_tie :
    ∃ (intakes : List Intake) (st' : Stores) (a b late : Sample),
      TakesIn (Stores.shared (fun _ => False) (Alike "e" "p")) {} .empty intakes st' ∧
      intakes.map (·.result) = [.ok a, .ok b, .ok late] ∧
      (a ≠ b ∧ a.timestamp = b.timestamp ∧ late.timestamp < a.timestamp) ∧
      (∀ i ∈ intakes, i.IsTimely {}) ∧
      ∃ s, st'.cached? "e" "p" = some s ∧ st'.trail.latest "e" "p" = some s ∧
        Sample.IsLastLatest [a, b, late] s := by
  have he : Text.isBlank "e" = false := by decide +kernel
  have hp : Text.isBlank "p" = false := by decide +kernel
  have hplace (t : Option Instant) := Report.toSample_ofPlace he hp t .epoch
  -- the second place has a height, which the checks do not look at
  have hhigh : Report.toSample ⟨"p", "e", 0, 0, none, some 0, none, none, some .epoch⟩ .epoch =
      .ok ⟨"p", "e", 0, 0, none, some 0, none, none, .epoch⟩ := by
    have hcheck : Report.check ⟨"p", "e", 0, 0, none, some 0, none, none, some .epoch⟩ = .ok () :=
      (Report.toSample_eq_ok (hplace (some .epoch))).1
    unfold Report.toSample
    rw [hcheck]
    rfl
  have hreread : Sample.reread? ⟨"p", "e", 0, 0, none, some 0, none, none, .epoch⟩ =
      some ⟨"p", "e", 0, 0, none, some 0, none, none, .epoch⟩ := by
    have hfloat : Json.reread? 0 = some 0 := by decide +kernel
    have hheight : Json.rereadOptional? (some 0) = some (some 0) := by decide +kernel
    unfold Sample.reread?
    simp only [hfloat, hheight]
    rfl
  have hnobody : Stores.empty.roster = .empty := rfl
  obtain ⟨first, st₁, hfirst, htimely₁, hroster₁⟩ := exists_timely (fun _ => False)
    (Alike.refl (e := "e") (p := "p")) (hplace none) hnobody
  obtain ⟨second, st₂, hsecond, htimely₂, hroster₂⟩ := exists_timely (fun _ => False)
    (Alike.refl (e := "e") (p := "p")) hhigh hroster₁
  obtain ⟨third, st₃, hthird, htimely₃, -⟩ := exists_timely (fun _ => False)
    (Alike.refl (e := "e") (p := "p")) (hplace (some .first)) hroster₂
  have htaken := TakesIn.cons hfirst (.cons hsecond (.cons hthird (.nil _)))
  have htimely := List.forall_mem_cons.mpr
    ⟨htimely₁, List.forall_mem_cons.mpr ⟨htimely₂, List.forall_mem_singleton.mpr htimely₃⟩⟩
  have hread : ∀ s ∈ [Sample.ofPlace "e" "p" .epoch,
      ⟨"p", "e", 0, 0, none, some 0, none, none, .epoch⟩, .ofPlace "e" "p" .first],
      Sample.ofBytes? s.toBytes = some s := by
    simp [Sample.ofBytes?_toBytes, Sample.reread?_ofPlace, hreread]
  have hpicked := cached_eq_latest (fun _ h => h) (Stores.agrees_of_nothing rfl rfl) htaken
    (by simp [Report.ofPlace]) htimely hread (List.cons_ne_nil _ _)
  exact ⟨_, _, _, _, _, htaken, rfl, ⟨by decide, rfl, by decide⟩, htimely, hpicked⟩

end Tracking

end Gathering
