import Gathering.Proofs.Time.Order

/-!
# Clocks that run

A wall clock is set to an instant and then runs (`Instant.elapsed`). The end of
the clock stops it, and a leap second that it was set to is left as if it had
not been. Neither does much harm:

* below the last instant a later time shows a later instant (`elapsed_lt_elapsed`);
* a deadline that is reckoned from what the clock shows is what the clock will
  show when the time is over (`elapsed_add`).

Both come from one description of how an instant is moved forward
(`shift?_eq_some_iff`): within its leap second, or along the seconds without it.
-/

namespace Gathering

namespace Instant

variable {t u v wall : Instant}

/-- What a clock shows that was set to an instant so many nanoseconds ago. The wall clock of a
rehearsal is one that runs like this (`Rehearsal.World.now`). -/
def elapsed (wall : Instant) (nanos : Nat) : Instant := wall.add (.saturate nanos)

/-! ## Moving forward

An instant is moved by counting nanoseconds. In a leap second there are two ways to count, and
which is taken depends on whether the leap second is left: within it the fraction goes on, and out
of it the seconds are counted as if it had not been. -/

/-- The nanoseconds from which one reckons who moves on out of a leap second. -/
def flatNanos (t : Instant) : Int :=
  t.second * 1000000000 + t.fraction - if 1000000000 ≤ t.fraction then 1000000000 else 0

theorem ofNanos?_eq_some_iff {n : Int} :
    ofNanos? n = some u ↔ u.fraction < 1000000000 ∧ u.second * 1000000000 + u.fraction = n := by
  unfold ofNanos? nanosPerSecond
  rw [at?_eq_some_iff]
  omega

theorem isLeap_iff : t.isLeap = true ↔ 1000000000 ≤ t.fraction :=
  decide_eq_true_iff

/-- **Where an instant is so many nanoseconds later**: still in its leap second, or outside of
any, where the seconds are counted without it.

All other lemmas about moving forward come from this one, by arithmetic. -/
theorem shift?_eq_some_iff {n : Nat} :
    t.shift? n = some u ↔
      (1000000000 ≤ t.fraction ∧ t.fraction + n < 2000000000 ∧
        u.second = t.second ∧ u.fraction = t.fraction + n) ∨
      ((t.fraction < 1000000000 ∨ 2000000000 ≤ t.fraction + n) ∧ u.fraction < 1000000000 ∧
        u.second * 1000000000 + u.fraction = t.flatNanos + n) := by
  unfold shift? flatNanos nanos nanosPerSecond
  simp only [isLeap_iff, Int.cast_ofNat_Int]
  by_cases hleap : 1000000000 ≤ t.fraction
  · rw [if_pos hleap]
    by_cases hstay : t.fraction + n < 2000000000
    · rw [if_neg (by omega), if_pos (by omega), at?_eq_some_iff]
      omega
    · rw [if_neg (by omega), if_neg (by omega), ofNanos?_eq_some_iff]
      omega
  · rw [if_pos (.inl hleap), if_neg hleap, ofNanos?_eq_some_iff]
    omega

theorem shift?_zero (t : Instant) : t.shift? (0 : Nat) = some t := by
  have hfraction := t.fraction_lt
  rw [shift?_eq_some_iff]
  unfold flatNanos
  omega

theorem shift?_add {m n : Nat} (h : t.shift? m = some u) (h' : u.shift? n = some v) :
    t.shift? (m + n : Nat) = some v := by
  rw [shift?_eq_some_iff] at h h' ⊢
  unfold flatNanos at h h' ⊢
  omega

theorem shift?_of_shift?_add {m n : Nat} (h : t.shift? m = some u)
    (h' : t.shift? (m + n : Nat) = some v) : u.shift? n = some v := by
  rw [shift?_eq_some_iff] at h h' ⊢
  unfold flatNanos at h h' ⊢
  omega

/-- Nothing comes after the last instant. -/
theorem eq_last_of_shift? {n : Nat} (h : last.shift? n = some u) : u = last := by
  have hle := u.le_last
  rw [shift?_eq_some_iff] at h
  unfold flatNanos at h
  refine rank_injective ?_
  unfold rank
  simp only [last] at h ⊢
  omega

/-- Who moves on further comes to a later instant. -/
theorem lt_of_shift? {m n : Nat} (h : t.shift? m = some u) (h' : t.shift? n = some v)
    (hlt : m < n) : u < v := by
  rw [shift?_eq_some_iff] at h h'
  unfold flatNanos at h h'
  show u.second < v.second ∨ u.second = v.second ∧ u.fraction < v.fraction
  omega

/-- The clock has every instant on the way to one that it has. -/
theorem shift?_of_le {m n : Nat} (h : t.shift? n = some v) (hle : m ≤ n) :
    ∃ u, t.shift? m = some u := by
  have hfirst := t.first_le
  have hlast := v.le_last
  rw [shift?_eq_some_iff] at h
  by_cases hstay : 1000000000 ≤ t.fraction ∧ t.fraction + m < 2000000000
  · refine ⟨⟨t.second, t.fraction + m, hfirst, t.le_last, ?_⟩, shift?_eq_some_iff.mpr (.inl ?_)⟩
    · exact .inr ⟨hstay.2, (t.fraction_lt.resolve_left (by omega)).2⟩
    · exact ⟨hstay.1, hstay.2, rfl, rfl⟩
  · have hbound : -8334601228800 * 1000000000 ≤ t.flatNanos + m ∧
        t.flatNanos + m < (8210266876799 + 1) * 1000000000 := by
      unfold flatNanos at h ⊢
      omega
    refine ⟨⟨(t.flatNanos + m) / 1000000000, ((t.flatNanos + m) % 1000000000).toNat,
      by omega, by omega, by omega⟩, shift?_eq_some_iff.mpr (.inr ?_)⟩
    show _ ∧ ((t.flatNanos + m) % 1000000000).toNat < 1000000000 ∧
      (t.flatNanos + m) / 1000000000 * 1000000000 +
        (((t.flatNanos + m) % 1000000000).toNat : Int) = t.flatNanos + m
    omega

/-! ## What the clock shows -/

/-- No instant is farther from another than a signed number of milliseconds tells. -/
theorem le_longestSigned_of_shift? {n : Nat} (h : t.shift? n = some u) :
    n ≤ Span.longestSigned := by
  have hfirst := t.first_le
  have hlast := u.le_last
  rw [shift?_eq_some_iff] at h
  unfold flatNanos at h
  unfold Span.longestSigned
  omega

/-- A span that has no signed form leads beyond the end of the clock, so that there is only one way
to get there. -/
theorem add_eq_getD (t : Instant) (d : Span) : t.add d = (t.shift? d.nanos).getD last := by
  unfold add Span.signed?
  split
  · rfl
  · next hlong =>
    cases hshift : t.shift? d.nanos with
    | none => rfl
    | some u => exact absurd (le_longestSigned_of_shift? hshift) hlong

/-- A sum below the last instant was not cut off. -/
theorem shift?_of_add_lt {d : Span} (h : t.add d < last) : t.shift? d.nanos = some (t.add d) := by
  rw [add_eq_getD] at h ⊢
  cases hshift : t.shift? d.nanos with
  | some u => rfl
  | none =>
    rw [hshift] at h
    exact absurd h (not_lt.mpr (le_refl _))

/-- **What lies some time ahead is later**, below the last instant. -/
theorem lt_add {d : Span} (h : t < last) (hpos : 0 < d.nanos) : t < t.add d := by
  by_cases hlast : t.add d < last
  · exact lt_of_shift? t.shift?_zero (shift?_of_add_lt hlast) hpos
  · exact lt_of_lt_of_le h (not_lt.mp hlast)

theorem elapsed_eq_getD (wall : Instant) (n : Nat) :
    wall.elapsed n = (wall.shift? n).getD last := by
  unfold elapsed
  rw [add_eq_getD]
  by_cases hlong : n ≤ Span.longestSigned
  · have hnanos : (Span.saturate n).nanos = n := by
      unfold Span.longestSigned at hlong
      show min n _ = n
      omega
    rw [hnanos]
  · -- neither the time nor what is left of it can be reached
    have hnone : ∀ m, Span.longestSigned < m → wall.shift? m = none := by
      intro m hm
      cases hshift : wall.shift? m with
      | none => rfl
      | some u => exact absurd (le_longestSigned_of_shift? hshift) (Nat.not_le.mpr hm)
    have hnanos : Span.longestSigned < (Span.saturate n).nanos := by
      unfold Span.longestSigned at hlong ⊢
      show _ < min n _
      omega
    rw [hnone n (Nat.not_le.mp hlong), hnone _ hnanos]

/-- What the clock shows below the last instant is an instant that can be reached. -/
theorem shift?_of_elapsed_lt {n : Nat} (h : wall.elapsed n < last) :
    wall.shift? n = some (wall.elapsed n) := by
  rw [elapsed_eq_getD] at h ⊢
  cases hshift : wall.shift? n with
  | some u => rfl
  | none =>
    rw [hshift] at h
    exact absurd h (not_lt.mpr (le_refl _))

/-- **A running clock shows a later instant at a later time**, below the last one. -/
theorem elapsed_lt_elapsed {m n : Nat} (hlt : m < n) (h : wall.elapsed n < last) :
    wall.elapsed m < wall.elapsed n := by
  have hn := shift?_of_elapsed_lt h
  obtain ⟨u, hm⟩ := shift?_of_le hn (Nat.le_of_lt hlt)
  rw [wall.elapsed_eq_getD m, hm]
  exact lt_of_shift? hm hn hlt

theorem elapsed_le_elapsed {m n : Nat} (hle : m ≤ n) (h : wall.elapsed n < last) :
    wall.elapsed m ≤ wall.elapsed n := by
  rcases Nat.lt_or_eq_of_le hle with hlt | rfl
  · exact le_of_lt (elapsed_lt_elapsed hlt h)
  · exact le_refl _

/-- Until the clock shows an instant that can be reached it shows none that is later. -/
theorem elapsed_le_of_shift? {m n : Nat} (hle : m ≤ n) (h : wall.shift? n = some v) :
    wall.elapsed m ≤ v := by
  obtain ⟨u, hm⟩ := shift?_of_le h hle
  rw [elapsed_eq_getD, hm]
  rcases Nat.lt_or_eq_of_le hle with hlt | rfl
  · exact le_of_lt (lt_of_shift? hm h hlt)
  · rw [hm] at h
    cases h
    exact le_refl v

/-- **A deadline is what the clock will show when the time is over.**

If both moves stay on the clock, they are one move. If one of them goes beyond the end, so does
the move by the sum, or the clock has stopped already and stays at its end. -/
theorem elapsed_add (wall : Instant) (n : Nat) (d : Span) :
    (wall.elapsed n).add d = wall.elapsed (n + d.nanos) := by
  rw [add_eq_getD, elapsed_eq_getD, elapsed_eq_getD]
  cases hfirst : wall.shift? n with
  | some u =>
    show (u.shift? d.nanos).getD last = _
    cases hboth : wall.shift? (n + d.nanos : Nat) with
    | some v => rw [shift?_of_shift?_add hfirst hboth]
    | none =>
      cases hsecond : u.shift? d.nanos with
      | none => rfl
      | some v =>
        rw [shift?_add hfirst hsecond] at hboth
        cases hboth
  | none =>
    -- the clock has come to its end, and stays there
    have hboth : wall.shift? (n + d.nanos : Nat) = none := by
      cases hboth : wall.shift? (n + d.nanos : Nat) with
      | none => rfl
      | some v =>
        obtain ⟨u, hu⟩ := shift?_of_le hboth (Nat.le_add_right n d.nanos)
        rw [hfirst] at hu
        cases hu
    rw [hboth]
    show (last.shift? d.nanos).getD last = last
    cases hmore : last.shift? d.nanos with
    | none => rfl
    | some u => exact eq_last_of_shift? hmore

/-! ## What is left

What is left until an instant decides whether a cached value is still worth writing, and how long
it is to live. -/

/-- **There is time left until a later instant**, except in a leap second: what is left is
reckoned from the seconds of the day, and after the last one of a day the next day seems to have
begun already. -/
theorem isSome_remaining {now : Instant} (h : now < t) (hclock : now.isLeap = false) :
    (t.remaining now).isSome = true := by
  have hnow : now.fraction < 1000000000 := by
    have hnot := mt isLeap_iff.mpr (Bool.eq_false_iff.mp hclock)
    omega
  have hahead : 0 < t.since now := by
    have hlt : now.second < t.second ∨ now.second = t.second ∧ now.fraction < t.fraction := h
    unfold since nanos secondOfDay nanosPerSecond
    simp only [hclock, isLeap_iff, Bool.false_eq_true, false_and, if_false]
    split <;> omega
  unfold remaining
  rw [if_neg (Int.not_le.mpr hahead)]
  rfl

/-! ## Outside of leap seconds

Two instants outside of leap seconds are as far apart as their nanoseconds say, so
that what is left until one of them is what a clock has still to run. In a leap
second neither holds: it has the nanoseconds of the second after it, but it comes
before that second. -/

theorem isLeap_eq_false_iff : t.isLeap = false ↔ t.fraction < 1000000000 := by
  rw [← Bool.not_eq_true, isLeap_iff, Nat.not_le]

theorem lt_iff_nanos (ht : t.isLeap = false) (hu : u.isLeap = false) :
    t < u ↔ t.nanos < u.nanos := by
  rw [isLeap_eq_false_iff] at ht hu
  show t.second < u.second ∨ t.second = u.second ∧ t.fraction < u.fraction ↔ _
  unfold nanos nanosPerSecond
  omega

/-- No instant comes after the last one. -/
theorem le_last_of_isLeap (ht : t.isLeap = false) : t ≤ last := by
  have hlast := t.le_last
  rw [isLeap_eq_false_iff] at ht
  show t.second < _ ∨ t.second = _ ∧ t.fraction ≤ _
  simp only [last]
  omega

theorem shift?_eq_some_iff_nanos (ht : t.isLeap = false) {n : Nat} :
    t.shift? n = some u ↔ u.isLeap = false ∧ u.nanos = t.nanos + n := by
  rw [shift?_eq_some_iff, isLeap_eq_false_iff]
  rw [isLeap_eq_false_iff] at ht
  unfold flatNanos nanos nanosPerSecond
  omega

theorem isLeap_elapsed (hwall : wall.isLeap = false) (n : Nat) :
    (wall.elapsed n).isLeap = false := by
  rw [elapsed_eq_getD]
  cases hshift : wall.shift? n with
  | none => rfl
  | some u => exact ((shift?_eq_some_iff_nanos hwall).mp hshift).1

theorem isLeap_add (ht : t.isLeap = false) (d : Span) : (t.add d).isLeap = false := by
  rw [add_eq_getD, ← elapsed_eq_getD]
  exact isLeap_elapsed ht d.nanos

theorem nanos_elapsed_of_lt {n : Nat} (hwall : wall.isLeap = false) (hu : u.isLeap = false)
    (h : wall.elapsed n < u) : (wall.elapsed n).nanos = wall.nanos + n :=
  ((shift?_eq_some_iff_nanos hwall).mp
    (shift?_of_elapsed_lt (lt_of_lt_of_le h (le_last_of_isLeap hu)))).2

/-- **A clock shows an instant before another** just as long as it has not run that far. -/
theorem elapsed_lt_iff {n : Nat} (hwall : wall.isLeap = false) (hu : u.isLeap = false) :
    wall.elapsed n < u ↔ wall.nanos + n < u.nanos := by
  constructor
  · intro h
    rw [← nanos_elapsed_of_lt hwall hu h]
    exact (lt_iff_nanos (isLeap_elapsed hwall n) hu).mp h
  · intro h
    -- the clock will come to the instant, so it comes to what lies on the way
    have hreached : wall.shift? (u.nanos - wall.nanos).toNat = some u :=
      (shift?_eq_some_iff_nanos hwall).mpr ⟨hu, by omega⟩
    obtain ⟨v, hshift⟩ := shift?_of_le hreached (show n ≤ _ by omega)
    rw [elapsed_eq_getD, hshift]
    exact lt_of_shift? hshift hreached (by omega)

/-- **What is left until an instant** are the nanoseconds in between. -/
theorem remaining_of_isLeap (ht : t.isLeap = false) (hu : u.isLeap = false) :
    u.remaining t =
      if u.nanos ≤ t.nanos then none else some (.saturate (u.nanos - t.nanos).toNat) := by
  unfold remaining since
  simp only [ht, hu, Bool.false_eq_true, false_and, if_false]
  exact ite_congr (propext (by omega)) (fun _ => rfl) fun _ => rfl

/-- **Nothing is left once the instant has been reached.** -/
theorem remaining_eq_none_iff (ht : t.isLeap = false) (hu : u.isLeap = false) :
    u.remaining t = none ↔ u ≤ t := by
  rw [remaining_of_isLeap ht hu, ← not_lt, lt_iff_nanos ht hu, Int.not_lt]
  split <;> simp_all

/-- What is left is not cut off. -/
theorem nanos_of_remaining {ttl : Span} (ht : t.isLeap = false) (hu : u.isLeap = false)
    (h : u.remaining t = some ttl) : u.nanos = t.nanos + ttl.nanos := by
  have hfirst := t.first_le
  have hlast := u.le_last
  rw [remaining_of_isLeap ht hu] at h
  split at h
  · cases h
  · next hleft =>
    cases h
    rw [isLeap_eq_false_iff] at ht hu
    show _ = _ + ((min _ _ : Nat) : Int)
    unfold nanos nanosPerSecond at hleft ⊢
    omega

/-- **What is left is over just when the clock comes to the instant.**

So a value that was cached until an instant is found in the cache as long as the clock shows an
earlier one: the cache counts nanoseconds, and the clock shows instants, but they agree. -/
theorem lt_add_remaining_iff {n : Nat} {ttl : Span} (hwall : wall.isLeap = false)
    (hu : u.isLeap = false) (h : u.remaining (wall.elapsed n) = some ttl) (later : Nat) :
    later < n + ttl.nanos ↔ wall.elapsed later < u := by
  have hleap := isLeap_elapsed hwall n
  have hahead : wall.elapsed n < u := Decidable.byContradiction fun hnot => by
    rw [(remaining_eq_none_iff hleap hu).mpr (not_lt.mp hnot)] at h
    cases h
  have hnanos := nanos_of_remaining hleap hu h
  rw [nanos_elapsed_of_lt hwall hu hahead] at hnanos
  rw [elapsed_lt_iff hwall hu]
  omega

end Instant

end Gathering
