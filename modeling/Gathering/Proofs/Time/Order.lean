import Gathering.Time.Instant

/-!
# The order of instants

An instant is a second and a fraction of it, and instants are compared by the
second first. A fraction stays below two seconds, so counting every second as
two turns an instant into one number, its **rank**, and the order of instants is
the order of their ranks (`Instant.le_iff_rank`, `Instant.lt_iff_rank`). Whatever
is true of the order of numbers carries over, and leap seconds need no case of
their own.

The very last instant of the clock lies in a leap second. It is not the last one
that the clock reaches by reckoning, which lies outside of leap seconds; but an
interval that ends with it has every instant.
-/

namespace Gathering.Instant

/-- **The place of an instant among all instants**, as one number. -/
def rank (t : Instant) : Int := t.second * 2000000000 + t.fraction

theorem fraction_lt_two_seconds (t : Instant) : t.fraction < 2000000000 := by
  rcases t.fraction_lt with h | h
  · omega
  · exact h.1

theorem le_iff_rank {s t : Instant} : s ≤ t ↔ s.rank ≤ t.rank := by
  have hs := s.fraction_lt_two_seconds
  have ht := t.fraction_lt_two_seconds
  show s.second < t.second ∨ s.second = t.second ∧ s.fraction ≤ t.fraction ↔ _
  unfold rank
  omega

theorem lt_iff_rank {s t : Instant} : s < t ↔ s.rank < t.rank := by
  have hs := s.fraction_lt_two_seconds
  have ht := t.fraction_lt_two_seconds
  show s.second < t.second ∨ s.second = t.second ∧ s.fraction < t.fraction ↔ _
  unfold rank
  omega

/-- An instant is what the clock has at its second and fraction. -/
theorem at?_eq_some_iff {t : Instant} {second : Int} {fraction : Nat} :
    at? second fraction = some t ↔ t.second = second ∧ t.fraction = fraction := by
  unfold at?
  constructor
  · intro h
    split at h
    · cases h
      exact ⟨rfl, rfl⟩
    · cases h
  · rintro ⟨rfl, rfl⟩
    rw [dif_pos ⟨⟨t.first_le, t.le_last⟩, t.fraction_lt⟩]

theorem rank_injective {s t : Instant} (h : s.rank = t.rank) : s = t := by
  have hs := s.fraction_lt_two_seconds
  have ht := t.fraction_lt_two_seconds
  unfold rank at h
  obtain ⟨second, fraction, _, _, _⟩ := s
  obtain ⟨second', fraction', _, _, _⟩ := t
  have hsecond : second = second' := by
    simp only at h hs ht
    omega
  have hfraction : fraction = fraction' := by
    simp only at h
    omega
  subst hsecond hfraction
  rfl

theorem le_refl (t : Instant) : t ≤ t := le_iff_rank.mpr (Int.le_refl _)

theorem le_trans {r s t : Instant} (h : r ≤ s) (h' : s ≤ t) : r ≤ t :=
  le_iff_rank.mpr (Int.le_trans (le_iff_rank.mp h) (le_iff_rank.mp h'))

theorem le_antisymm {s t : Instant} (h : s ≤ t) (h' : t ≤ s) : s = t :=
  rank_injective (Int.le_antisymm (le_iff_rank.mp h) (le_iff_rank.mp h'))

theorem not_lt {s t : Instant} : ¬ s < t ↔ t ≤ s := by
  rw [lt_iff_rank, le_iff_rank, Int.not_lt]

theorem le_of_lt {s t : Instant} (h : s < t) : s ≤ t := by
  rw [le_iff_rank]
  exact Int.le_of_lt (lt_iff_rank.mp h)

theorem first_le_self (t : Instant) : first ≤ t := by
  have hfirst := t.first_le
  show _ < _ ∨ _ = _ ∧ 0 ≤ t.fraction
  simp only [first]
  omega

/-- The very last instant of the clock, at the end of the leap second that its last minute may
have. -/
def veryLast : Instant := ⟨last.second, 1999999999, last.first_le, last.le_last, by decide⟩

theorem self_le_veryLast (t : Instant) : t ≤ veryLast := by
  have hlast := t.le_last
  have hfraction := t.fraction_lt_two_seconds
  show t.second < _ ∨ t.second = _ ∧ t.fraction ≤ _
  simp only [veryLast, last]
  omega

theorem lt_trichotomy (s t : Instant) : s < t ∨ s = t ∨ t < s := by
  rw [lt_iff_rank, lt_iff_rank]
  rcases Int.lt_trichotomy s.rank t.rank with h | h | h
  · exact .inl h
  · exact .inr (.inl (rank_injective h))
  · exact .inr (.inr h)

theorem lt_of_lt_of_le {r s t : Instant} (h : r < s) (h' : s ≤ t) : r < t :=
  lt_iff_rank.mpr (Int.lt_of_lt_of_le (lt_iff_rank.mp h) (le_iff_rank.mp h'))

theorem lt_of_le_of_lt {r s t : Instant} (h : r ≤ s) (h' : s < t) : r < t :=
  lt_iff_rank.mpr (Int.lt_of_le_of_lt (le_iff_rank.mp h) (lt_iff_rank.mp h'))

end Gathering.Instant
