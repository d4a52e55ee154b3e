import Gathering.Proofs.Location.Agreement
import Gathering.Proofs.Time.Flow

/-!
# Finding what was recorded

Who records a location and then asks for it expects to get the same sample. It
comes from the cache, so it is what can be read of the bytes that were written.
Names and times are read as they were written. A float is written as a number,
though, and there is no number for an infinity or for what is no number: such a
float is written as `null`, and read as none.

The checks of a report keep these floats out, but they do so field by field. An
accuracy and a speed have to be finite, and a latitude, a longitude and a heading
lie between two bounds, where there are no others (`isFinite_of_le`). Nobody looks
at the altitude. So what is found is the sample without an altitude that is not
finite (`Sample.asRead`), and this is the sample itself exactly if it has no such
altitude (`Tracking.finds_asRead`).

That a finite float is read back as the same one is asked of each number of the
sample: a reader of JSON may take a short cut that is off in the last place.
-/

namespace Gathering

namespace Sample

variable {s : Sample}

/-- What a sample may say besides its place. -/
def measures (s : Sample) : List (Option Float) := [s.accuracy, s.altitude, s.speed, s.heading]

/-- The numbers of a sample, apart from its time. -/
def numbers (s : Sample) : List Float :=
  s.latitude :: s.longitude :: s.measures.flatMap Option.toList

/-- The sample with another altitude. -/
def withAltitude (s : Sample) (altitude : Option Float) : Sample := { s with altitude := altitude }

/-- **The sample that is read**: an altitude that is not finite is lost. -/
def asRead (s : Sample) : Sample := s.withAltitude (s.altitude.filter Float.isFinite)

/-- No float is lost exactly if it is finite. -/
theorem filter_isFinite_eq_self {x : Option Float} :
    x.filter Float.isFinite = x ↔ ∀ y ∈ x, y.isFinite = true := by
  cases x with
  | none => exact iff_of_true rfl (fun _ h => by cases h)
  | some y =>
    rw [Option.filter_some_eq_some]
    exact ⟨fun h _ hy => by cases hy; exact h, fun h => h y rfl⟩

/-- **Nothing is lost** exactly if the altitude is finite or missing. -/
theorem asRead_eq_self_iff : s.asRead = s ↔ ∀ x ∈ s.altitude, x.isFinite = true := by
  rw [← filter_isFinite_eq_self]
  exact ⟨fun h => congrArg Sample.altitude h, fun h => by unfold asRead; rw [h]; rfl⟩

/-- **The altitude is all that may be lost**: the other numbers of a sound sample are finite. -/
theorem IsSound.reread? (h : s.IsSound)
    (hnumbers : ∀ x ∈ s.numbers, x.isFinite = true → Json.reread? x = some x) :
    s.reread? = some s.asRead := by
  have hlatitude : s.latitude.isFinite = true :=
    isFinite_of_le (by decide +kernel) (by decide +kernel) h.latitude.1 h.latitude.2
  have hlongitude : s.longitude.isFinite = true :=
    isFinite_of_le (by decide +kernel) (by decide +kernel) h.longitude.1 h.longitude.2
  have hheading : ∀ x ∈ s.heading, x.isFinite = true := fun x hx =>
    isFinite_of_le (by decide +kernel) (by decide +kernel) (h.heading x hx).1 (h.heading x hx).2
  have haccuracy : ∀ x ∈ s.accuracy, x.isFinite = true := fun x hx => (h.accuracy x hx).1
  have hspeed : ∀ x ∈ s.speed, x.isFinite = true := fun x hx => (h.speed x hx).1
  have hmeasures : ∀ x ∈ s.measures,
      Json.rereadOptional? x = some (x.filter Float.isFinite) := fun x hx =>
    Json.rereadOptional?_eq_filter fun y hy => hnumbers y <| List.mem_cons_of_mem _ <|
      List.mem_cons_of_mem _ <| List.mem_flatMap.mpr ⟨x, hx, Option.mem_toList.mpr hy⟩
  unfold Sample.reread?
  rw [hnumbers _ (by simp [numbers]) hlatitude, hnumbers _ (by simp [numbers]) hlongitude,
    hmeasures s.accuracy (by simp [measures]), hmeasures s.altitude (by simp [measures]),
    hmeasures s.speed (by simp [measures]), hmeasures s.heading (by simp [measures]),
    filter_isFinite_eq_self.mpr haccuracy, filter_isFinite_eq_self.mpr hspeed,
    filter_isFinite_eq_self.mpr hheading]
  rfl

end Sample

namespace Report

/-- The report with another altitude. -/
def withAltitude (r : Report) (altitude : Option Float) : Report := { r with altitude := altitude }

/-- **Nobody looks at the altitude** of a report. -/
theorem toSample_withAltitude (r : Report) (altitude : Option Float) (now : Instant) :
    (r.withAltitude altitude).toSample now = (r.toSample now).map (·.withAltitude altitude) := by
  have hcheck : (r.withAltitude altitude).check = r.check := rfl
  unfold toSample
  rw [hcheck]
  cases r.check <;> rfl

end Report

namespace Tracking

open Stores (Alike)

variable {fails : Request → Prop} {st st₁ : Stores} {s : Sample} {turns : List (Turn Stores)}

/-! ## Once a report was accepted

What is cached was read before in `Tracking.grown_of_runs`. Here it is asked what comes back from
its bytes, and whether it is still there when somebody asks. -/

/-- Lifetimes lie ahead while the clock stands still, if the event is not over and the default
lifetime is not empty. -/
theorem lt_endOf {c : LocationConfig} {now : Instant} {answer : Except Error (Option Event)}
    (hevent : ∀ t ∈ answer.toOption.join.bind (·.endsAt), now < t)
    (hpos : 0 < c.defaultTtl.nanos) (hnow : now < .last) : now < endOf c now answer := by
  unfold endOf
  cases hend : answer.toOption.join.bind (·.endsAt) with
  | none => exact Instant.lt_add hnow hpos
  | some t => exact hevent t hend

/-- **What is cached once a report was accepted** and its lifetime lies ahead.

The clock must not stand in a leap second, for then it may be that nothing seems to be left of a
lifetime that lies ahead. -/
theorem cached?_of_runs {c : LocationConfig} {r : Report}
    (hanswers : ∀ call, ¬ fails (.cache call))
    (run : Work.Runs (Stores.shared fails (Alike r.eventId r.participantId)) st (record c r).run
      turns (.ok s) st₁)
    (hnewer : isNewer (st.cached? r.eventId r.participantId) s = false) :
    ∃ now answer later rest, r.toSample now = .ok s ∧
      turns.map (·.deed) = untilCached s now answer later ++ rest ∧
      (later.isLeap = false → later < endOf c now answer →
        st₁.cached? r.eventId r.participantId = Sample.ofBytes? s.toBytes) := by
  rcases grown_of_runs hanswers run with
    ⟨err, herr, -⟩ | ⟨s, now, answer, later, rest, hs, hsample, hdeeds, -, hcached⟩
  · cases herr
  · cases hs
    refine ⟨now, answer, later, rest, hsample, hdeeds, fun hclock hahead => ?_⟩
    obtain ⟨ttl, httl⟩ := Option.isSome_iff_exists.mp (Instant.isSome_remaining hahead hclock)
    rw [hcached ttl httl]
    unfold kept
    rw [hnewer]
    rfl

/-- **Whoever asks for the latest location gets an answer, and it is this sample.** -/
def LatestIs (fails : Request → Prop) (e p : String) (st : Stores) (s : Sample) : Prop :=
  (∃ turns, Work.Runs (Stores.shared fails (Alike e p)) st (latest e p).run turns
    (.ok (some s)) st) ∧
  ∀ turns result st', Work.Runs (Stores.shared fails (Alike e p)) st (latest e p).run turns
    result st' → result = .ok (some s)

/-- The cached location is the answer. -/
theorem latestIs_of_cached {e p : String} (hanswers : ∀ call, ¬ fails (.cache call))
    (hcached : st.cached? e p = some s) : LatestIs fails e p st s := by
  refine ⟨reaches_latest fails .refl hcached, fun turns result st' run => ?_⟩
  rw [run_latest] at run
  obtain ⟨first, last, cached, st₁, rfl, hread, hlast⟩ := Work.runs_bind_iff.mp run
  obtain ⟨halike, hfound⟩ := runs_cached?_answering hanswers hread
  obtain rfl : cached = some s := hfound.trans (halike.cached.trans hcached)
  cases hlast
  rfl

/-- **After a report was accepted its sample is found** in some form: if the clock knows no leap
seconds, the lifetime of the sample lies ahead when it is to be cached, no newer location is cached,
and the finite numbers of the sample are read back, then the latest location is the sample in this
form. -/
def Finds (fails : Request → Prop) (c : LocationConfig) (r : Report)
    (form : Sample → Sample) : Prop :=
  ∀ (st st₁ : Stores) (turns : List (Turn Stores)) (s : Sample),
    Work.Runs (Stores.shared fails (Alike r.eventId r.participantId)) st (record c r).run turns
      (.ok s) st₁ →
    isNewer (st.cached? r.eventId r.participantId) s = false →
    (∀ x ∈ s.numbers, x.isFinite = true → Json.reread? x = some x) →
    ∃ now answer later rest, turns.map (·.deed) = untilCached s now answer later ++ rest ∧
      (later.isLeap = false → later < endOf c now answer →
        LatestIs fails r.eventId r.participantId st₁ (form s))

/-- What is found after a report whose deeds are known. -/
theorem Finds.of_deeds {c : LocationConfig} {r : Report} {form : Sample → Sample}
    {now later : Instant} {answer : Except Error (Option Event)} {rest : List Answered}
    (h : Finds fails c r form)
    (run : Work.Runs (Stores.shared fails (Alike r.eventId r.participantId)) st (record c r).run
      turns (.ok s) st₁)
    (hdeeds : turns.map (·.deed) = untilCached s now answer later ++ rest)
    (hclock : later.isLeap = false) (hahead : later < endOf c now answer)
    (hnewer : isNewer (st.cached? r.eventId r.participantId) s = false)
    (hnumbers : ∀ x ∈ s.numbers, x.isFinite = true → Json.reread? x = some x) :
    LatestIs fails r.eventId r.participantId st₁ (form s) := by
  obtain ⟨now', answer', later', rest', hdeeds', hfound⟩ := h st st₁ turns s run hnewer hnumbers
  rw [hdeeds] at hdeeds'
  obtain ⟨rfl, rfl, rfl, -⟩ : now = now' ∧ answer = answer' ∧ later = later' ∧ rest = rest' := by
    simpa using hdeeds'
  exact hfound hclock hahead

/-- The sample is found as it is read. It was checked when it was accepted, so that the altitude
is the only number that may not be finite. -/
theorem finds_of_answering (hanswers : ∀ call, ¬ fails (.cache call)) (c : LocationConfig)
    (r : Report) : Finds fails c r Sample.asRead := by
  intro st st₁ turns s run hnewer hnumbers
  obtain ⟨now, answer, later, rest, hsample, hdeeds, hcached⟩ :=
    cached?_of_runs hanswers run hnewer
  refine ⟨now, answer, later, rest, hdeeds, fun hclock hahead => ?_⟩
  refine latestIs_of_cached hanswers ?_
  rw [hcached hclock hahead, Sample.ofBytes?_toBytes]
  exact (Report.isSound_of_toSample hsample).reread? hnumbers

/-- **The sample of a report is found without an altitude that is not finite**, while the cache
answers and what others do leaves the location alone. So it is found as it was returned exactly if
its altitude is finite or missing. -/
theorem finds_asRead (hanswers : ∀ call, ¬ fails (.cache call)) (c : LocationConfig) (r : Report) :
    Finds fails c r Sample.asRead ∧
      ∀ s : Sample, s.asRead = s ↔ ∀ x ∈ s.altitude, x.isFinite = true :=
  ⟨finds_of_answering hanswers c r, fun _ => Sample.asRead_eq_self_iff⟩

/-- By default what is recorded at the epoch about an event that is not known lies ahead. -/
theorem epoch_lt_endOf : Instant.epoch < endOf {} .epoch (.ok none) :=
  lt_endOf (fun _ h => by cases h) (by decide) (by decide)

/-- **A place is found as it was recorded.** -/
theorem finds_place :
    ∃ (st : Stores) (turns turns' : List (Turn Stores)),
      Work.Runs (Stores.shared (fun _ => False) (Alike "e" "p")) .empty
        (record {} (.ofPlace "e" "p" none)).run turns (.ok (.ofPlace "e" "p" .epoch)) st ∧
      Work.Runs (Stores.shared (fun _ => False) (Alike "e" "p")) st (latest "e" "p").run turns'
        (.ok (some (.ofPlace "e" "p" .epoch))) st := by
  have hzero : Json.reread? 0 = some 0 := by decide +kernel
  have hsample : (Report.ofPlace "e" "p" none).toSample .epoch = .ok (.ofPlace "e" "p" .epoch) :=
    Report.toSample_ofPlace (by decide +kernel) (by decide +kernel) none .epoch
  obtain ⟨turns, rest, run, hdeeds⟩ :=
    exists_runs_record (fun _ => False) (Alike.refl (e := "e") (p := "p")) {} hsample .empty
  have hfinds : Finds (fun _ => False) {} (.ofPlace "e" "p" none) Sample.asRead :=
    (finds_asRead (fun _ h => h) {} _).1
  obtain ⟨⟨turns', run'⟩, -⟩ := hfinds.of_deeds run hdeeds rfl epoch_lt_endOf rfl
    (by simp [Sample.numbers, Sample.measures, Sample.ofPlace, hzero])
  exact ⟨_, turns, turns', run, run'⟩

/-- **A place at an infinite height is not found as it was recorded.** -/
theorem not_finds_of_infinite :
    ¬ Finds (fun _ => False) {} ((Report.ofPlace "e" "p" none).withAltitude (some (1 / 0))) id := by
  intro hfinds
  have hzero : Json.reread? 0 = some 0 := by decide +kernel
  have hinfinite : (1 / 0 : Float).isFinite = false := by decide +kernel
  obtain ⟨s, hs⟩ : ∃ s, s = (Sample.ofPlace "e" "p" .epoch).withAltitude (some (1 / 0)) := ⟨_, rfl⟩
  have hsample : ((Report.ofPlace "e" "p" none).withAltitude (some (1 / 0))).toSample .epoch =
      .ok s := by
    rw [Report.toSample_withAltitude,
      Report.toSample_ofPlace (by decide +kernel) (by decide +kernel) none .epoch, hs]
    rfl
  have hnumbers : ∀ x ∈ s.numbers, x.isFinite = true → Json.reread? x = some x := by
    simp [hs, Sample.numbers, Sample.measures, Sample.withAltitude, Sample.ofPlace, hzero,
      hinfinite]
  obtain ⟨turns, rest, run, hdeeds⟩ :=
    exists_runs_record (fun _ => False) (Alike.refl (e := "e") (p := "p")) {} hsample .empty
  have hahead : Instant.epoch < endOf {} .epoch (.ok (Stores.empty.roster.event? s.eventId)) :=
    epoch_lt_endOf
  -- the latest location would be the sample itself, and it is the sample as it is read
  have hread : Finds (fun _ => False) {}
      ((Report.ofPlace "e" "p" none).withAltitude (some (1 / 0))) Sample.asRead :=
    finds_of_answering (fun _ h => h) {} _
  obtain ⟨⟨turns', run'⟩, -⟩ := hfinds.of_deeds run hdeeds rfl hahead rfl hnumbers
  obtain ⟨-, hfound⟩ := hread.of_deeds run hdeeds rfl hahead rfl hnumbers
  have heq : s = s.asRead := Option.some.inj (Except.ok.inj (hfound _ _ _ run'))
  have hfinite := Sample.asRead_eq_self_iff.mp heq.symm (1 / 0) (by rw [hs]; rfl)
  rw [hinfinite] at hfinite
  cases hfinite

end Tracking

end Gathering
