import Gathering.Proofs.Time.Order
import Gathering.Store.Trail
import Mathlib.Data.List.Induction

/-!
# The latest sample

Of the samples of a participant of an event the history picks one with the
greatest timestamp, and it finds one as soon as there are any
(`Trail.latestOf_spec`). Of several with that timestamp it is the one that was
received last (`Trail.isLastLatest_of_latestOf`).

The history keeps a sample while it goes through the others and gives it up for one
that is not earlier. The invariant of this walk is that the kept sample splits the
samples that were seen: none before it is later, and all behind it are earlier.
-/

namespace Gathering

/-- **An instant is the greatest timestamp** of some samples. -/
structure Sample.IsLatest (samples : List Sample) (t : Instant) : Prop where
  /-- It is one of the timestamps. -/
  mem : ∃ s ∈ samples, s.timestamp = t
  /-- No timestamp is greater. -/
  le : ∀ s ∈ samples, s.timestamp ≤ t

theorem Sample.IsLatest.append {samples : List Sample} {t : Instant} (h : IsLatest samples t)
    {s : Sample} (hs : s.timestamp ≤ t) : IsLatest (samples ++ [s]) t := by
  obtain ⟨a, ha, hat⟩ := h.mem
  refine ⟨⟨a, List.mem_append_left _ ha, hat⟩, List.forall_mem_append.mpr ⟨h.le, ?_⟩⟩
  exact fun b hb => List.mem_singleton.mp hb ▸ hs

theorem Sample.isLatest_append_self {samples : List Sample} {s : Sample}
    (h : ∀ a ∈ samples, a.timestamp ≤ s.timestamp) :
    IsLatest (samples ++ [s]) s.timestamp := by
  refine ⟨⟨s, List.mem_append_right _ (List.mem_singleton_self s), rfl⟩,
    List.forall_mem_append.mpr ⟨h, fun b hb => ?_⟩⟩
  exact List.mem_singleton.mp hb ▸ Instant.le_refl _

/-- **A sample is the last one of the latest**: no other is later, and those that follow are
earlier. -/
def Sample.IsLastLatest (samples : List Sample) (s : Sample) : Prop :=
  ∃ before after, samples = before ++ s :: after ∧
    (∀ a ∈ before, a.timestamp ≤ s.timestamp) ∧ ∀ a ∈ after, a.timestamp < s.timestamp

theorem Sample.IsLastLatest.append {samples : List Sample} {s a : Sample}
    (h : IsLastLatest samples s) (ha : a.timestamp < s.timestamp) :
    IsLastLatest (samples ++ [a]) s := by
  obtain ⟨before, after, rfl, hbefore, hafter⟩ := h
  refine ⟨before, after ++ [a], by rw [List.append_assoc, List.cons_append], hbefore, ?_⟩
  exact List.forall_mem_append.mpr ⟨hafter, List.forall_mem_singleton.mpr ha⟩

theorem Sample.isLastLatest_append_self {samples : List Sample} {s : Sample}
    (h : ∀ a ∈ samples, a.timestamp ≤ s.timestamp) : IsLastLatest (samples ++ [s]) s :=
  ⟨samples, [], rfl, h, fun _ h => by cases h⟩

/-- Whether a sample is about a participant of an event. -/
def Sample.isOf (s : Sample) (e p : String) : Bool := s.eventId = e && s.participantId = p

theorem Sample.isOf_iff {s : Sample} {e p : String} :
    s.isOf e p = true ↔ s.eventId = e ∧ s.participantId = p := by
  simp [isOf]

namespace Trail

theorem latestOf_append (samples : List Sample) (s : Sample) :
    latestOf (samples ++ [s]) = later (latestOf samples) s := by
  unfold latestOf
  rw [List.foldl_append]
  rfl

/-- Of two samples the later one is picked. -/
theorem later_eq (b s : Sample) :
    later (some b) s = some b ∧ s.timestamp < b.timestamp ∨
      later (some b) s = some s ∧ b.timestamp ≤ s.timestamp := by
  unfold later
  dsimp only
  split
  · next h => exact .inl ⟨rfl, h⟩
  · next h => exact .inr ⟨rfl, Instant.not_lt.mp h⟩

/-- **The sample that is picked** has the greatest timestamp. -/
theorem latestOf_spec (samples : List Sample) :
    (samples = [] ∧ latestOf samples = none) ∨
      ∃ s ∈ samples, latestOf samples = some s ∧ Sample.IsLatest samples s.timestamp := by
  induction samples using List.reverseRecOn with
  | nil => exact .inl ⟨rfl, rfl⟩
  | append_singleton samples s ih =>
    right
    rw [latestOf_append]
    rcases ih with ⟨rfl, hnone⟩ | ⟨b, hmem, hsome, hlatest⟩
    · rw [hnone]
      exact ⟨s, List.mem_singleton_self s, rfl, Sample.isLatest_append_self fun _ h => by cases h⟩
    · rw [hsome]
      rcases later_eq b s with ⟨heq, hlt⟩ | ⟨heq, hle⟩
      · exact ⟨b, List.mem_append_left _ hmem, heq, hlatest.append (Instant.le_of_lt hlt)⟩
      · refine ⟨s, List.mem_append_right _ (List.mem_singleton_self s), heq, ?_⟩
        exact Sample.isLatest_append_self fun a ha => Instant.le_trans (hlatest.le a ha) hle

/-- **The sample that is picked is the last one of the latest.** -/
theorem isLastLatest_of_latestOf {samples : List Sample} {s : Sample}
    (h : latestOf samples = some s) : Sample.IsLastLatest samples s := by
  induction samples using List.reverseRecOn generalizing s with
  | nil => cases h
  | append_singleton samples a ih =>
    rw [latestOf_append] at h
    rcases latestOf_spec samples with ⟨rfl, hnone⟩ | ⟨b, -, hsome, hlatest⟩
    · rw [hnone] at h
      cases h
      exact Sample.isLastLatest_append_self fun _ h => by cases h
    · rw [hsome] at h
      rcases later_eq b a with ⟨heq, hlt⟩ | ⟨heq, hle⟩
      · rw [heq] at h
        cases h
        exact (ih hsome).append hlt
      · rw [heq] at h
        cases h
        exact Sample.isLastLatest_append_self fun x hx => Instant.le_trans (hlatest.le x hx) hle

/-- The samples of a participant of an event. -/
def of (t : Trail) (e p : String) : List Sample := t.samples.filter (·.isOf e p)

theorem of_append (t : Trail) (s : Sample) (e p : String) :
    (t.append s).of e p = t.of e p ++ [s].filter (·.isOf e p) :=
  List.filter_append _ _

end Trail

end Gathering
