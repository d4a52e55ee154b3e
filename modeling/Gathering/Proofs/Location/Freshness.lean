import Gathering.Proofs.Cache.Alone

/-!
# Whether the latest location is the newest one

The history keeps every sample and the cache keeps one of them, and whoever asks
for the latest location gets the cached one if there is one. So the answer is a
newest sample as long as the cached location is **fresh** (`Stores.IsFresh`).

Reports come in any order, and a sample is compared with the cached location
only, not with the history. A report keeps the cached location fresh, but for two
exceptions (`Tracking.Intake.Heeds`):

* a newest sample does not reach the cache, because its lifetime is over or the
  cache has failed, and an older location stays there;
* a late sample reaches the cache, because the cache has not shown the newer
  location: it has lapsed, it cannot be read, or the cache has failed.

There are no others, and each of them does spoil a fresh location
(`Tracking.Intake.heeds_iff_isFresh`). Without exceptions the freshest location
wins, whatever else happens (`Tracking.latest_of_takesIn`).
-/

namespace Gathering

open Stores (Spares)

namespace Stores

variable {e p : String} {st st' st'' : Stores}

/-- **The cached location of a participant is a newest one**, if there is a cached location. -/
def IsFresh (e p : String) (st : Stores) : Prop :=
  ∀ s, st.cached? e p = some s → Sample.IsLatest (st.trail.of e p) s.timestamp

/-- A participant who is spared stays fresh. -/
theorem IsFresh.spares (h : st.IsFresh e p) (hspares : Spares e p st st') : st'.IsFresh e p := by
  intro s hcached
  rw [hspares.samples]
  exact h s (hspares.cached? hcached)

theorem isFresh_of_none (h : st.cached? e p = none) : st.IsFresh e p := by
  intro s hcached
  rw [h] at hcached
  cases hcached

theorem keepsEntry_cached {s : Sample} (he : ':' ∉ e.toList) (hp : ':' ∉ p.toList)
    (h : s.isOf e p = false) (ttl : Span) : KeepsEntry e p st (st.cached s ttl) := by
  refine ⟨Nat.le_refl _, ?_⟩
  have hne : Cache.Key.location e p ≠ Cache.Key.location s.eventId s.participantId := by
    intro heq
    obtain ⟨hevent, hparticipant⟩ := Cache.Key.location_injective he hp heq.symm
    rw [Sample.isOf_iff.mpr ⟨hevent, hparticipant⟩] at h
    cases h
  unfold cached
  rw [Cache.TimedMap.find?_set, if_neg hne]

theorem timestamp_of_cached {s s' : Sample} {ttl : Span}
    (h : (st.cached s ttl).cached? s.eventId s.participantId = some s') :
    s'.timestamp = s.timestamp := by
  obtain ⟨bytes, hget, hread⟩ := Option.bind_eq_some_iff.mp h
  obtain ⟨entry, hfind, -, rfl⟩ := Cache.TimedMap.get?_eq_some_iff.mp hget
  unfold cached at hfind
  rw [Cache.TimedMap.find?_set, if_pos rfl] at hfind
  cases hfind
  exact (Sample.eq_of_ofBytes? hread).2.2

/-! ## Others who touch neither the entry nor the history -/

/-- Others change events and participants, and nothing else. -/
def Reschedules (st st' : Stores) : Prop := ∃ roster, st' = { st with roster := roster }

theorem Reschedules.refl (st : Stores) : st.Reschedules st := ⟨st.roster, rfl⟩

theorem Reschedules.trans (h : st.Reschedules st') (h' : st'.Reschedules st'') :
    st.Reschedules st'' := by
  obtain ⟨_, rfl⟩ := h
  obtain ⟨roster, rfl⟩ := h'
  exact ⟨roster, rfl⟩

/-- Others let time pass, and nothing else. -/
def Waits (st st' : Stores) : Prop := ∃ clock, st.clock ≤ clock ∧ st' = { st with clock := clock }

theorem Waits.refl (st : Stores) : st.Waits st := ⟨st.clock, Nat.le_refl _, rfl⟩

theorem Waits.trans (h : st.Waits st') (h' : st'.Waits st'') : st.Waits st'' := by
  obtain ⟨_, hle, rfl⟩ := h
  obtain ⟨clock, hle', rfl⟩ := h'
  exact ⟨clock, Nat.le_trans hle hle', rfl⟩

end Stores

namespace Tracking

variable {fails : Request → Prop} {e p : String} {st st' : Stores}

/-! ## Runs of reports

What happens to a report is taken down with its effects, because the two exceptions are about
effects: whether a sample was written to the cache, and what the cache had shown before. -/

/-- **A report that was taken in**, with what has happened meanwhile. -/
structure Intake where
  /-- The report. -/
  report : Report
  /-- The stores before. -/
  before : Stores
  /-- The effects. -/
  turns : List (Turn Stores)
  /-- The sample, if the report was accepted. -/
  result : Except Error Sample
  /-- The stores afterwards. -/
  after : Stores

namespace Intake

/-- The sample about a participant that was accepted, if any. -/
def accepted (e p : String) (i : Intake) : List Sample :=
  i.result.toOption.toList.filter (·.isOf e p)

/-- **The sample was cached**: it was written, and the cache has not failed. -/
def IsCached (s : Sample) (i : Intake) : Prop :=
  ∃ st₁ ttl st₂, ⟨st₁, .request (.cache (setCall s ttl)), .ok (), st₂⟩ ∈ i.turns

/-- **A report did not meet with the exceptions.** -/
structure Heeds (e p : String) (i : Intake) : Prop where
  /-- A sample that is newer than all before was cached, or no older one is cached afterwards. -/
  newest : ∀ s, i.result = .ok s → s.isOf e p = true →
    (∀ a ∈ i.before.trail.of e p, a.timestamp < s.timestamp) →
      i.IsCached s ∨ i.after.cached? e p = none
  /-- If a sample that is older than another was cached, the cache had shown a location before. -/
  late : ∀ s, i.result = .ok s → s.isOf e p = true →
    (∃ a ∈ i.before.trail.of e p, s.timestamp < a.timestamp) → i.IsCached s →
      ∀ st₁ answer st₂, ⟨st₁, .request (.cache (getCall s)), answer, st₂⟩ ∈ i.turns →
        ∃ bytes s', answer = .ok (some bytes) ∧ Sample.ofBytes? bytes = some s'

end Intake

/-- **Reports are taken in, one after another.** -/
inductive TakesIn (W : Surroundings Stores) (c : LocationConfig) :
    Stores → List Intake → Stores → Prop
  /-- No report more. -/
  | nil (st : Stores) : TakesIn W c st [] st
  /-- A report, and then others. -/
  | cons {r : Report} {st st₁ st' : Stores} {turns : List (Turn Stores)}
      {result : Except Error Sample} {intakes : List Intake}
      (run : Work.Runs W st (record c r).run turns result st₁)
      (rest : TakesIn W c st₁ intakes st') :
      TakesIn W c st (⟨r, st, turns, result, st₁⟩ :: intakes) st'

theorem Caching.samples {s : Sample} {turns : List (Turn Stores)}
    (h : Caching e p s st turns st') : st'.trail.of e p = st.trail.of e p := by
  cases h with
  | left spared => exact spared.samples
  | written st₁ st₂ _ _ _ before _ _ _ between _ wrote =>
    subst wrote
    exact between.samples.trans before.samples

/-- Caching a sample about somebody else spares a participant. -/
theorem Caching.spares {s : Sample} {turns : List (Turn Stores)} (he : ':' ∉ e.toList)
    (hp : ':' ∉ p.toList) (hs : s.isOf e p = false) (h : Caching e p s st turns st') :
    Spares e p st st' := by
  refine ⟨?_, h.samples⟩
  cases h with
  | left spared => exact spared.toKeepsEntry
  | written st₁ st₂ _ _ ttl before _ _ _ between _ wrote =>
    subst wrote
    exact (before.trans between).toKeepsEntry.trans (Stores.keepsEntry_cached he hp hs ttl)

/-- **The history of a participant grows by what is accepted.** -/
theorem Intake.samples {i : Intake}
    (h : Recorded e p i.report i.before i.turns i.result i.after) :
    i.after.trail.of e p = i.before.trail.of e p ++ i.accepted e p := by
  obtain ⟨r, st, turns, result, st'⟩ := i
  cases h with
  | refused err _ spared => exact spared.samples.trans (List.append_nil _).symm
  | accepted s st₁ st₂ _ first last now sound before between uncached caching split =>
    rw [caching.samples, between.samples, Stores.samples_appended, before.samples]
    rfl

/-! ## One report -/

/-- **What a report about a participant has done to the entry**: it was left alone, or the cache
was asked, did not show a newer location, and the sample was cached.

In the second case it is also told what the cache was asked and what it has answered, since it is
from this answer that a report knows whether it is late. -/
theorem Intake.isCached_cases {i : Intake} {s : Sample}
    (h : Recorded e p i.report i.before i.turns i.result i.after) (hresult : i.result = .ok s)
    (hs : s.isOf e p = true) :
    (¬ i.IsCached s ∧ Stores.KeepsEntry e p i.before i.after) ∨
      (i.IsCached s ∧ (∀ s', i.after.cached? e p = some s' → s'.timestamp = s.timestamp) ∧
        ∃ st₁ answer, ⟨st₁, .request (.cache (getCall s)), answer, st₁⟩ ∈ i.turns ∧
          Stores.KeepsEntry e p i.before st₁ ∧
          ((∃ err, answer = .error err) ∨
            answer = .ok (st₁.cache.get? st₁.clock (Cache.Key.location e p)) ∧
            isNewer (st₁.cached? e p) s = false)) := by
  obtain ⟨r, st, turns, result, st'⟩ := i
  subst hresult
  obtain ⟨rfl, rfl⟩ := Sample.isOf_iff.mp hs
  cases h with
  | accepted _ st₁ st₂ _ first last now sound before between uncached caching split =>
    have hentry := before.toKeepsEntry.trans ⟨between.clock, between.entry⟩
    cases caching with
    | left spared unwritten =>
      refine .inl ⟨?_, hentry.trans spared.toKeepsEntry⟩
      rintro ⟨st₃, ttl, st₄, hmem⟩
      rw [split] at hmem
      exact (List.mem_append.mp hmem).elim (fun h => uncached _ h _ rfl)
        (fun h => unwritten _ _ _ h)
    | written st₃ st₄ answer cached ttl asking asked said newer writing set wrote =>
      refine .inr ⟨⟨_, _, _, split ▸ List.mem_append_right first set⟩, fun s' hcached => ?_,
        st₃, answer, split ▸ List.mem_append_right first asked,
        hentry.trans asking.toKeepsEntry, ?_⟩
      · subst wrote
        exact Stores.timestamp_of_cached hcached
      · rcases said with ⟨hget, rfl⟩ | herr
        · exact .inr ⟨hget, newer⟩
        · exact .inl herr

/-- The history after a report about a participant that was accepted. -/
theorem Intake.samples_of_ok {i : Intake} {s : Sample}
    (h : Recorded e p i.report i.before i.turns i.result i.after) (hresult : i.result = .ok s)
    (hs : s.isOf e p = true) : i.after.trail.of e p = i.before.trail.of e p ++ [s] := by
  rw [Intake.samples h]
  unfold Intake.accepted
  rw [hresult]
  rw [show (Except.ok s : Except Error Sample).toOption.toList = [s] from rfl,
    List.filter_cons_of_pos (by exact hs), List.filter_nil]

/-- A report that was refused, or that is about somebody else, spares a participant. -/
theorem Intake.spares {i : Intake} (he : ':' ∉ e.toList) (hp : ':' ∉ p.toList)
    (h : Recorded e p i.report i.before i.turns i.result i.after)
    (hnone : ∀ s, i.result = .ok s → s.isOf e p = false) : Spares e p i.before i.after := by
  obtain ⟨r, st, turns, result, st'⟩ := i
  cases h with
  | refused err _ spared => exact spared
  | accepted s st₁ st₂ _ first last now sound before between uncached caching split =>
    have hs := hnone s rfl
    have happended : (st₁.appended s).trail.of e p =
        st₁.trail.of e p := by
      rw [Stores.samples_appended, List.filter_cons_of_neg (by simp [hs])]
      exact List.append_nil _
    have hadded : Spares e p st₁ (st₁.appended s) :=
      ⟨⟨Nat.le_refl _, rfl⟩, happended⟩
    exact ((before.trans hadded).trans between).trans (caching.spares he hp hs)

/-- **A report that does not meet with an exception keeps the cached location fresh.**

The cached location afterwards is the one from before or the sample of the report. In the first
case it is still a newest one, unless the sample is newer than all before, and then it was cached
or nothing is. In the second case no sample of the history is newer, because the cache had shown a
location and that one was as new as any. -/
theorem Intake.Heeds.isFresh {i : Intake} (he : ':' ∉ e.toList) (hp : ':' ∉ p.toList)
    (hheeds : i.Heeds e p) (hfresh : i.before.IsFresh e p)
    (h : Recorded e p i.report i.before i.turns i.result i.after) : i.after.IsFresh e p := by
  by_cases hown : ∃ s, i.result = .ok s ∧ s.isOf e p = true
  · obtain ⟨s, hresult, hs⟩ := hown
    intro s' hcached
    -- either the entry is the one from before, or it is the sample of this report
    rw [Intake.samples_of_ok h hresult hs]
    rcases Intake.isCached_cases h hresult hs with
      ⟨huncached, hkeeps⟩ | ⟨hiscached, htimestamp, st₁, answer, hasked, hkeeps, hsaid⟩
    · have hlatest := hfresh s' (hkeeps.cached? hcached)
      refine hlatest.append (Instant.not_lt.mp fun hlt => ?_)
      rcases hheeds.newest s hresult hs
        fun a ha => Instant.lt_of_le_of_lt (hlatest.le a ha) hlt with hiscached | hnone
      · exact huncached hiscached
      · rw [hcached] at hnone
        cases hnone
    · rw [htimestamp s' hcached]
      refine Sample.isLatest_append_self fun a ha => Instant.not_lt.mp fun hlt => ?_
      -- a newer sample is in the history, so what the cache has shown is at least as new as that
      obtain ⟨bytes, found, rfl, hread⟩ :=
        hheeds.late s hresult hs ⟨a, ha, hlt⟩ hiscached _ _ _ hasked
      rcases hsaid with ⟨err, herr⟩ | ⟨hget, hnewer⟩
      · cases herr
      · have hfound : st₁.cached? e p = some found := by
          unfold Stores.cached?
          rw [← Except.ok.inj hget]
          exact hread
        have hle := (hfresh found (hkeeps.cached? hfound)).le a ha
        rw [hfound] at hnewer
        have hnot : ¬ s.timestamp < found.timestamp := of_decide_eq_false hnewer
        exact hnot (Instant.lt_of_lt_of_le hlt hle)
  · have hspares := Intake.spares he hp h fun s hresult =>
      Bool.eq_false_iff.mpr fun hs => hown ⟨s, hresult, hs⟩
    exact hfresh.spares hspares

/-- **The exceptions are exactly what spoils a fresh location**, if there is a cached location
afterwards. -/
theorem Intake.heeds_iff_isFresh {i : Intake} {s' : Sample} (he : ':' ∉ e.toList)
    (hp : ':' ∉ p.toList) (hfresh : i.before.IsFresh e p)
    (h : Recorded e p i.report i.before i.turns i.result i.after)
    (hcached : i.after.cached? e p = some s') : i.Heeds e p ↔ i.after.IsFresh e p := by
  refine ⟨fun hheeds => hheeds.isFresh he hp hfresh h, fun hfresh' => ⟨?_, ?_⟩⟩
  · -- had the newest sample not been cached, the entry would be older than it
    intro s hresult hs hall
    have hlatest := hfresh' s' hcached
    rw [Intake.samples_of_ok h hresult hs] at hlatest
    rcases Intake.isCached_cases h hresult hs with ⟨-, hkeeps⟩ | ⟨hiscached, -⟩
    · obtain ⟨a, ha, heq⟩ := (hfresh s' (hkeeps.cached? hcached)).mem
      have hle := hlatest.le s (List.mem_append_right _ (List.mem_singleton_self s))
      exact absurd (hall a ha) (Instant.not_lt.mpr (heq ▸ hle))
    · exact .inl hiscached
  · -- a late sample that was cached is what is found afterwards, and it is not fresh
    rintro s hresult hs ⟨a, ha, hlt⟩ hiscached
    have hlatest := hfresh' s' hcached
    rw [Intake.samples_of_ok h hresult hs] at hlatest
    rcases Intake.isCached_cases h hresult hs with ⟨huncached, -⟩ | ⟨-, htimestamp, -⟩
    · exact absurd hiscached huncached
    · have hle := hlatest.le a (List.mem_append_left _ ha)
      rw [htimestamp s' hcached] at hle
      exact absurd hlt (Instant.not_lt.mpr hle)

/-! ## All reports

The invariant is that the cached location is fresh, with respect to the history as it has grown. -/

/-- **Reports keep the cached location fresh**, unless one of them meets with an exception, and the
history grows by what is accepted. -/
theorem TakesIn.isFresh {c : LocationConfig} {intakes : List Intake}
    (hholds : ∀ call, ¬ fails (.trail call)) (he : ':' ∉ e.toList)
    (hp : ':' ∉ p.toList) (h : TakesIn (amid fails e p) c st intakes st') (hfresh : st.IsFresh e p)
    (hheeds : ∀ i ∈ intakes, i.Heeds e p) :
    st'.IsFresh e p ∧
      st'.trail.of e p = st.trail.of e p ++ intakes.flatMap (Intake.accepted e p) := by
  induction h with
  | nil st => exact ⟨hfresh, (List.append_nil _).symm⟩
  | @cons r st st₁ st' turns result intakes run rest ih =>
    have hrecorded : Recorded e p r st turns result st₁ := recorded_of_runs hholds run
    obtain ⟨hheed, hheeds⟩ := List.forall_mem_cons.mp hheeds
    obtain ⟨hfresh', hsamples⟩ := ih (hheed.isFresh he hp hfresh hrecorded) hheeds
    have hgrown := Intake.samples (i := ⟨r, st, turns, result, st₁⟩) hrecorded
    refine ⟨hfresh', ?_⟩
    rw [hsamples, hgrown, List.flatMap_cons, List.append_assoc]

/-- **A fresh location is the one that is found.** -/
theorem latest_of_isFresh (hholds : ∀ call, ¬ fails (.trail call)) {turns : List (Turn Stores)}
    {result : Except Error (Option Sample)}
    (run : Work.Runs (amid fails e p) st (latest e p).run turns result st')
    (hfresh : st.IsFresh e p) (hsome : st.trail.of e p ≠ []) :
    ∃ s, result = .ok (some s) ∧ Sample.IsLatest (st.trail.of e p) s.timestamp := by
  rw [run_latest] at run
  obtain ⟨first, last, cached, st₁, rfl, hread, hlast⟩ := Work.runs_bind_iff.mp run
  obtain ⟨answer, rfl, spared, hsaid⟩ := runs_cached? hread
  cases cached with
  | some s =>
    cases hlast
    rcases hsaid with ⟨-, hcached⟩ | ⟨-, hnone⟩
    · exact ⟨s, rfl, hfresh s (Stores.KeepsEntry.cached? spared.toKeepsEntry hcached.symm)⟩
    · cases hnone
  | none =>
    cases hlast with
    | ask others answered hdone =>
      cases hdone
      obtain ⟨rfl, -⟩ := answered.of_trail (hholds _)
      have hsamples := (Spares.trans spared others).samples
      rcases Trail.latestOf_spec (st.trail.of e p) with ⟨hnil, -⟩ | ⟨s, -, hlatest, hs⟩
      · exact absurd hnil hsome
      · refine ⟨s, ?_, hs⟩
        rw [← hsamples] at hlatest
        exact congrArg Except.ok hlatest

/-! ## The simplest reports

A place without measures is a report whose bytes can be read again without asking what becomes of
floats. For such reports runs can be given. -/

theorem Intake.accepted_ofPlace (r : Report) (st st' : Stores) (turns : List (Turn Stores))
    (t : Instant) :
    Intake.accepted e p ⟨r, st, turns, .ok (.ofPlace e p t), st'⟩ = [.ofPlace e p t] :=
  List.filter_cons_of_pos (by simp [Sample.isOf, Sample.ofPlace])

theorem samples_appended_ofPlace (st : Stores) (e p : String) (t : Instant) :
    (st.appended (.ofPlace e p t)).trail.of e p = st.trail.of e p ++ [.ofPlace e p t] := by
  rw [Stores.samples_appended, List.filter_cons_of_pos (by simp [Sample.isOf, Sample.ofPlace]),
    List.filter_nil]

/-- The place that was recorded first is fresh. -/
theorem isFresh_placed (e p : String) {ttl : Span} (hpos : 0 < ttl.nanos) :
    (placed e p ttl).IsFresh e p := by
  intro s hcached
  rw [cached?_placed e p hpos] at hcached
  cases hcached
  rw [show (placed e p ttl).trail.of e p = [] ++ [Sample.ofPlace e p .epoch] from
    samples_appended_ofPlace .empty e p .epoch]
  exact Sample.isLatest_append_self fun _ h => by cases h

/-- It stays fresh after a late report. -/
theorem isFresh_appended_late (e p : String) {ttl : Span} (hpos : 0 < ttl.nanos) :
    ((placed e p ttl).appended (.ofPlace e p .first)).IsFresh e p := by
  intro s hcached
  rw [samples_appended_ofPlace]
  exact (isFresh_placed e p hpos s hcached).append (Instant.first_le_self _)

/-- A late report of a place leaves the place in the cache. -/
theorem reaches_record_late (fails : Request → Prop) {ttl : Span}
    (he : Text.isBlank e = false) (hp : Text.isBlank p = false) (hpos : 0 < ttl.nanos) :
    Work.Reaches (amid fails e p) (placed e p ttl) (record {} (.ofPlace e p (some .first))).run
      (.ok (.ofPlace e p .first)) ((placed e p ttl).appended (.ofPlace e p .first)) := by
  have hsample : (Report.ofPlace e p (some .first)).toSample .epoch = .ok (.ofPlace e p .first) :=
    Report.toSample_ofPlace he hp (some .first) .epoch
  have hcached : ((placed e p ttl).appended (.ofPlace e p .first)).cached? e p =
      some (.ofPlace e p .epoch) := cached?_placed e p hpos
  have hlt : Instant.first < Instant.epoch := by decide
  have hnewer : isNewer (((placed e p ttl).appended (.ofPlace e p .first)).cached? e p)
      (.ofPlace e p .first) = true := by
    rw [hcached]
    exact decide_eq_true hlt
  have hrefreshed : ∀ ttl', ((placed e p ttl).appended (.ofPlace e p .first)).refreshed
      (.ofPlace e p .first) ttl' = (placed e p ttl).appended (.ofPlace e p .first) := fun ttl' =>
    Stores.refreshed_of_isNewer (s := .ofPlace e p .first) ttl' hnewer
  have hrecorded : Work.Reaches (amid fails e p) (placed e p ttl) _ _ _ :=
    reaches_record fails Spares.refl (c := {}) hsample rfl
  rwa [hrefreshed] at hrecorded

/-! ## The newest location -/

/-- **The freshest location wins.** Reports about any participants are taken in one after another,
with timestamps in any order, while others move the clock and change events in any way and any call
may fail but those of the history. If the cached location of a participant was fresh at the
beginning – or there was none – and no report meets with an exception, then the location that is
found is one with the greatest timestamp of all that were accepted. -/
theorem latest_of_takesIn {c : LocationConfig} {st₁ : Stores} {intakes : List Intake}
    {turns : List (Turn Stores)} {result : Except Error (Option Sample)}
    (hholds : ∀ call, ¬ fails (.trail call)) (he : ':' ∉ e.toList) (hp : ':' ∉ p.toList)
    (hfresh : st.IsFresh e p) (h : TakesIn (amid fails e p) c st intakes st₁)
    (hheeds : ∀ i ∈ intakes, i.Heeds e p)
    (run : Work.Runs (amid fails e p) st₁ (latest e p).run turns result st')
    (hsome : st.trail.of e p ++ intakes.flatMap (Intake.accepted e p) ≠ []) :
    ∃ s, result = .ok (some s) ∧
      Sample.IsLatest (st.trail.of e p ++ intakes.flatMap (Intake.accepted e p)) s.timestamp := by
  obtain ⟨hfresh', hsamples⟩ := h.isFresh hholds he hp hfresh hheeds
  rw [← hsamples] at hsome ⊢
  exact latest_of_isFresh hholds run hfresh' hsome

/-- **A late report does not matter**: the place that was recorded first is still found. -/
theorem latest_of_takesIn_of_late :
    ∃ (intakes : List Intake) (st₁ st' : Stores) (turns : List (Turn Stores))
      (result : Except Error (Option Sample)),
      TakesIn (amid Request.IsCacheCall "e" "p") {} .empty intakes st₁ ∧
      intakes.map (·.result) = [.ok (.ofPlace "e" "p" .epoch), .ok (.ofPlace "e" "p" .first)] ∧
      (∀ i ∈ intakes, i.Heeds "e" "p") ∧
      Work.Runs (amid Request.IsCacheCall "e" "p") st₁ (latest "e" "p").run turns result st' ∧
      ∃ s, result = .ok (some s) ∧
        Sample.IsLatest [.ofPlace "e" "p" .epoch, .ofPlace "e" "p" .first] s.timestamp := by
  have he : Text.isBlank "e" = false := by decide +kernel
  have hp : Text.isBlank "p" = false := by decide +kernel
  have he' : ':' ∉ "e".toList := by decide +kernel
  have hp' : ':' ∉ "p".toList := by decide +kernel
  have hholds : ∀ call, ¬ Request.IsCacheCall (.trail call) := fun _ ⟨_, h⟩ => by cases h
  obtain ⟨ttl, httl, hpos⟩ := exists_remaining_epoch
  have hplacing : Work.Reaches (amid Request.IsCacheCall "e" "p") .empty _ _ _ :=
    reaches_record_ofPlace _ Spares.refl he hp httl
  have hfinding : Work.Reaches (amid Request.IsCacheCall "e" "p")
      ((placed "e" "p" ttl).appended (.ofPlace "e" "p" .first)) (latest "e" "p").run _ _ :=
    reaches_latest _ Spares.refl (cached?_placed "e" "p" hpos)
  obtain ⟨first, hfirst⟩ := hplacing
  obtain ⟨second, hsecond⟩ := reaches_record_late Request.IsCacheCall he hp hpos
  obtain ⟨last, hlast⟩ := hfinding
  have hempty : Stores.empty.IsFresh "e" "p" := Stores.isFresh_of_none rfl
  have hplaced := isFresh_placed "e" "p" hpos
  have htaken := TakesIn.cons hfirst (.cons hsecond (.nil _))
  -- each report keeps the location fresh, so it cannot have met with an exception
  have hheeds := List.forall_mem_cons.mpr
    ⟨(Intake.heeds_iff_isFresh (i := ⟨_, _, first, _, placed "e" "p" ttl⟩) he' hp' hempty
        (recorded_of_runs hholds hfirst) (cached?_placed "e" "p" hpos)).mpr hplaced,
      List.forall_mem_singleton.mpr
        ((Intake.heeds_iff_isFresh (i := ⟨_, placed "e" "p" ttl, second, _, _⟩) he' hp' hplaced
          (recorded_of_runs hholds hsecond) (cached?_placed "e" "p" hpos)).mpr
            (isFresh_appended_late "e" "p" hpos))⟩
  have hwins := latest_of_takesIn hholds he' hp' hempty htaken hheeds hlast
    (by simp [Intake.accepted_ofPlace])
  simp only [List.flatMap_cons, List.flatMap_nil, Intake.accepted_ofPlace] at hwins
  exact ⟨_, _, _, _, _, htaken, rfl, hheeds, hlast, hwins⟩

/-! ## Where the freshest location does not win

For each kind of exception there is a run in which the older place is found in the end. The three
runs have the beginning in common, and differ in what keeps the newer sample out of the cache or
the older one in it. -/

/-- **The freshest location wins** in every run that begins with nothing recorded. -/
def FreshestWins (W : Surroundings Stores) (c : LocationConfig) (e p : String) : Prop :=
  ∀ (st st₁ st' : Stores) (intakes : List Intake) (turns : List (Turn Stores))
    (result : Except Error (Option Sample)), st.cache = .empty → st.trail = .empty →
    TakesIn W c st intakes st₁ → Work.Runs W st₁ (latest e p).run turns result st' →
    intakes.flatMap (Intake.accepted e p) ≠ [] →
    ∃ s, result = .ok (some s) ∧
      Sample.IsLatest (intakes.flatMap (Intake.accepted e p)) s.timestamp

/-- **A second place that spoils the first one.** Two places are recorded, and then the older one is
found. -/
theorem not_freshestWins {fails : Request → Prop} {others : Stores → Stores → Prop} {r : Report}
    {ttl : Span} {s s' : Sample} (hrefl : ∀ st, others st st)
    (he : Text.isBlank e = false) (hp : Text.isBlank p = false)
    (httl : (Instant.epoch.add defaultCacheTtl).remaining .epoch = some ttl)
    (hs : s = .ofPlace e p s.timestamp)
    (hsecond : Work.Reaches (Stores.shared fails others) (placed e p ttl) (record {} r).run (.ok s)
      st')
    (hcached : st'.cached? e p = some s')
    (holder : s'.timestamp < s.timestamp ∨ s'.timestamp < .epoch) :
    ¬ FreshestWins (Stores.shared fails others) {} e p := by
  intro hwins
  obtain ⟨first, hfirst⟩ := reaches_record_ofPlace fails hrefl he hp httl
  obtain ⟨second, hsecond⟩ := hsecond
  obtain ⟨last, hlast⟩ := reaches_latest fails hrefl hcached
  rw [hs] at hsecond
  obtain ⟨found, hfound, hlatest⟩ := hwins _ _ _ _ _ _ rfl rfl
    (.cons hfirst (.cons hsecond (.nil _))) hlast (by simp [Intake.accepted_ofPlace])
  cases hfound
  simp only [List.flatMap_cons, List.flatMap_nil, Intake.accepted_ofPlace] at hlatest
  rcases holder with hlt | hlt
  · exact Instant.not_lt.mpr (hlatest.le (.ofPlace e p s.timestamp) (by simp)) hlt
  · exact Instant.not_lt.mpr (hlatest.le (.ofPlace e p .epoch) (by simp)) hlt

/-- An event that is over. -/
def endedEvent (e : String) : Event := ⟨e, "o", "", .scheduled, .epoch, some .epoch, none⟩

/-- What is cached about an event that is over has no lifetime left. -/
theorem remaining_endedEvent (e : String) (c : LocationConfig) :
    ((Roster.empty.insertEvent (endedEvent e)).lifetimeEnd c e .epoch).remaining .epoch = none := by
  have hfind : (Roster.empty.insertEvent (endedEvent e)).event? e = some (endedEvent e) :=
    (Keyed.find?_insert ..).trans (if_pos rfl)
  unfold Roster.lifetimeEnd
  rw [hfind]
  rfl

/-- The stores of the first place, with its event brought forward. -/
def placedAtEnd (e p : String) (ttl : Span) : Stores :=
  { placed e p ttl with roster := Roster.empty.insertEvent (endedEvent e) }

/-- **A newer place that is not cached, because the event was brought forward and is over.** -/
theorem reaches_record_ended (he : Text.isBlank e = false) (hp : Text.isBlank p = false)
    (ttl : Span) :
    Work.Reaches (Stores.shared (fun _ => False) Stores.Reschedules) (placed e p ttl)
      (record {} (.ofPlace e p (some .last))).run (.ok (.ofPlace e p .last))
      ((placedAtEnd e p ttl).appended (.ofPlace e p .last)) := by
  have hsample : (Report.ofPlace e p (some .last)).toSample .epoch = .ok (.ofPlace e p .last) :=
    Report.toSample_ofPlace he hp (some .last) .epoch
  have hrecorded : Work.Reaches _ (placedAtEnd e p ttl) _ _ _ :=
    reaches_record (fun _ => False) Stores.Reschedules.refl (c := {}) hsample
      (remaining_endedEvent e {})
  rw [run_record] at hrecorded ⊢
  exact Work.Reaches.after Stores.Reschedules.trans ⟨_, rfl⟩ hrecorded

/-- **A newer place that is not cached, because the cache has failed.** -/
theorem reaches_record_failed (he : Text.isBlank e = false) (hp : Text.isBlank p = false)
    {ttl : Span} (httl : (Instant.epoch.add defaultCacheTtl).remaining .epoch = some ttl)
    (hpos : 0 < ttl.nanos) :
    Work.Reaches (Stores.shared Request.IsCacheCall Eq) (placed e p ttl)
      (record {} (.ofPlace e p (some .last))).run (.ok (.ofPlace e p .last))
      ((placed e p ttl).appended (.ofPlace e p .last)) := by
  have hsample : (Report.ofPlace e p (some .last)).toSample .epoch = .ok (.ofPlace e p .last) :=
    Report.toSample_ofPlace he hp (some .last) .epoch
  have hcached : ((placed e p ttl).appended (.ofPlace e p .last)).cached? e p =
      some (.ofPlace e p .epoch) := cached?_placed e p hpos
  have hlt : ¬ Instant.last < Instant.epoch := by decide
  have hnewer : isNewer (((placed e p ttl).appended (.ofPlace e p .last)).cached? e p)
      (.ofPlace e p .last) = false := by
    rw [hcached]
    exact decide_eq_false hlt
  exact reaches_record_of_cacheLatest _ Eq.refl hsample
    (reaches_cacheLatest_failing _ Eq.refl (s := .ofPlace e p .last) httl hnewer ⟨_, rfl⟩
      (.store "no answer"))

/-- When what was cached at the epoch has lapsed. -/
def later : Instant := Instant.epoch.add defaultCacheTtl

/-- What is cached then lives for a while, too. -/
theorem exists_remaining_later :
    ∃ ttl : Span, (later.add defaultCacheTtl).remaining later = some ttl ∧ 0 < ttl.nanos :=
  ⟨_, rfl, by decide⟩

/-- The stores of the first place, with its entry lapsed. -/
def placedLongAgo (e p : String) (ttl : Span) : Stores := { placed e p ttl with clock := ttl.nanos }

/-- A place whose entry has lapsed is not found. -/
theorem cached?_placedLongAgo (e p : String) (ttl : Span) :
    (placedLongAgo e p ttl).cached? e p = none := by
  have hget : (placedLongAgo e p ttl).cache.get? ttl.nanos (Cache.Key.location e p) = none :=
    Cache.TimedMap.get?_set_lapsed _ _ _ (Nat.le_of_eq (Nat.zero_add _))
  exact congrArg (Option.bind · Sample.ofBytes?) hget

/-- **A late place that is cached, because the entry of the newer one has lapsed.** -/
theorem reaches_record_lapsed (he : Text.isBlank e = false) (hp : Text.isBlank p = false)
    (ttl : Span) :
    ∃ ttl' : Span, 0 < ttl'.nanos ∧
      Work.Reaches (Stores.shared (fun _ => False) Stores.Waits) (placed e p ttl)
        (record {} (.ofPlace e p (some .first))).run (.ok (.ofPlace e p .first))
        (((placedLongAgo e p ttl).appended (.ofPlace e p .first)).cached (.ofPlace e p .first)
          ttl') := by
  -- whatever time it is, what is cached lives for a while by default
  obtain ⟨ttl', httl, hpos⟩ := exists_remaining_later
  have hsample : (Report.ofPlace e p (some .first)).toSample later = .ok (.ofPlace e p .first) :=
    Report.toSample_ofPlace he hp (some .first) later
  have hrefreshed : ((placedLongAgo e p ttl).appended (.ofPlace e p .first)).refreshed
      (.ofPlace e p .first) (some ttl') = _ :=
    Stores.refreshed_of_none (s := .ofPlace e p .first) ttl' (cached?_placedLongAgo e p ttl)
  have hrecorded : Work.Reaches _ (placedLongAgo e p ttl) _ _ _ :=
    reaches_record (fun _ => False) Stores.Waits.refl (c := {}) hsample httl
  rw [hrefreshed] at hrecorded
  rw [run_record] at hrecorded ⊢
  exact ⟨ttl', hpos,
    Work.Reaches.after Stores.Waits.trans ⟨ttl.nanos, Nat.zero_le _, rfl⟩ hrecorded⟩

/-- **The freshest location does not always win**, even if two places are all that is recorded:

* nothing fails and no time passes, but the event is brought forward and is over when the second
  place, which is newer, is recorded;
* nobody comes in between, but the cache fails when the second place, which is newer, is recorded;
* nothing fails and nothing but time passes, but the first place has lapsed when the second one,
  which is older, is recorded. -/
theorem not_freshestWins_of_exception :
    ¬ FreshestWins (Stores.shared (fun _ => False) Stores.Reschedules) {} "e" "p" ∧
      ¬ FreshestWins (Stores.shared Request.IsCacheCall Eq) {} "e" "p" ∧
      ¬ FreshestWins (Stores.shared (fun _ => False) Stores.Waits) {} "e" "p" := by
  have he : Text.isBlank "e" = false := by decide +kernel
  have hp : Text.isBlank "p" = false := by decide +kernel
  have hlast : Instant.epoch < Instant.last := by decide
  have hfirst : Instant.first < Instant.epoch := by decide
  obtain ⟨ttl, httl, hpos⟩ := exists_remaining_epoch
  obtain ⟨ttl', hpos', hlapsed⟩ := reaches_record_lapsed he hp ttl
  exact ⟨not_freshestWins Stores.Reschedules.refl he hp httl rfl (reaches_record_ended he hp ttl)
      (cached?_placed "e" "p" hpos) (.inl hlast),
    not_freshestWins Eq.refl he hp httl rfl (reaches_record_failed he hp httl hpos)
      (cached?_placed "e" "p" hpos) (.inl hlast),
    not_freshestWins Stores.Waits.refl he hp httl rfl hlapsed
      (Stores.cached?_cached_ofPlace _ "e" "p" .first hpos') (.inr hfirst)⟩

end Tracking

end Gathering
