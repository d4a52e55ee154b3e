import Gathering.Proofs.Time.Flow

/-!
# Reckoning that saturates

An instant that is moved by a span stops at the end of the clock. A span without a
signed form stops there at once, but it is longer than the clock, so that it makes no
difference (`Instant.add_eq_getD`, `Instant.sub_eq_getD`).

Outside of leap seconds an instant is its number of nanoseconds (`Instant.eq_of_nanos`),
and the clock has just the numbers between those of its first and of its last instant
(`Instant.exists_ofNanos?_iff`). So moving an instant is adding or subtracting, with one
cut at the far end (`Instant.nanos_add`, `Instant.nanos_sub`). All else follows from the
two cuts: moving keeps the order of instants, a longer span leads further, and what is
left until an instant leads there (`Instant.reckons`).
-/

namespace Gathering.Instant

variable {t u : Instant} {d e : Span} {n : Int}

/-! ## Nanoseconds for instants -/

theorem nanos_first : first.nanos = -8334601228800 * 1000000000 := by decide

theorem nanos_last : last.nanos = 8210266876799 * 1000000000 + 999999999 := by decide

theorem eq_of_nanos (ht : t.isLeap = false) (hu : u.isLeap = false) (h : t.nanos = u.nanos) :
    t = u := by
  rw [isLeap_eq_false_iff] at ht hu
  unfold nanos nanosPerSecond at h
  refine rank_injective ?_
  unfold rank
  omega

theorem le_iff_nanos (ht : t.isLeap = false) (hu : u.isLeap = false) :
    t ≤ u ↔ t.nanos ≤ u.nanos := by
  rw [← not_lt, lt_iff_nanos hu ht, Int.not_lt]

theorem nanos_first_le (t : Instant) : first.nanos ≤ t.nanos := by
  have hfirst := t.first_le
  rw [nanos_first]
  unfold nanos nanosPerSecond
  omega

theorem nanos_le_last (ht : t.isLeap = false) : t.nanos ≤ last.nanos :=
  (le_iff_nanos ht rfl).mp (le_last_of_isLeap ht)

theorem ofNanos?_eq_some_iff_nanos : ofNanos? n = some u ↔ u.isLeap = false ∧ u.nanos = n := by
  rw [ofNanos?_eq_some_iff, isLeap_eq_false_iff]
  rfl

/-- **The clock has the nanoseconds** from those of its first instant to those of its last. -/
theorem exists_ofNanos?_iff : (∃ u, ofNanos? n = some u) ↔ first.nanos ≤ n ∧ n ≤ last.nanos := by
  constructor
  · rintro ⟨u, hu⟩
    obtain ⟨hleap, rfl⟩ := ofNanos?_eq_some_iff_nanos.mp hu
    exact ⟨u.nanos_first_le, nanos_le_last hleap⟩
  · rintro ⟨hfirst, hlast⟩
    rw [nanos_first] at hfirst
    rw [nanos_last] at hlast
    refine ⟨⟨n / 1000000000, (n % 1000000000).toNat, by omega, by omega, by omega⟩, ?_⟩
    rw [ofNanos?_eq_some_iff]
    dsimp only
    omega

theorem ofNanos?_eq_none_iff : ofNanos? n = none ↔ n < first.nanos ∨ last.nanos < n := by
  rw [Option.eq_none_iff_forall_ne_some, ← not_exists, exists_ofNanos?_iff]
  omega

theorem shift?_of_isLeap (ht : t.isLeap = false) (n : Int) :
    t.shift? n = ofNanos? (t.nanos + n) := by
  unfold shift?
  dsimp only
  rw [ht, if_pos (.inl Bool.false_ne_true)]

/-! ## Spans without a signed form

A span may have more milliseconds than a signed number can hold. Then it is longer than the clock,
in either direction and from every instant, and what is computed for it is what saturation gives
anyway. -/

/-- An instant is not far after the epoch, not even in a leap second. -/
theorem nanos_lt (t : Instant) : t.nanos < 8210266876801 * 1000000000 := by
  obtain ⟨second, fraction, _, hlast, hfraction⟩ := t
  unfold nanos nanosPerSecond
  dsimp only
  omega

/-- **The instant a span earlier** is the first one if the clock does not have it. -/
theorem sub_eq_getD (t : Instant) (d : Span) : t.sub d = (t.shift? (-d.nanos)).getD first := by
  unfold sub Span.signed?
  split
  · rfl
  · next hlong =>
    have hlong : Span.longestSigned < d.nanos := Nat.lt_of_not_le hlong
    -- a span without a signed form is longer than the clock
    have hhigh := t.nanos_lt
    have hfirst := t.first_le
    have hnone : t.shift? (-d.nanos) = none := by
      unfold shift?
      dsimp only
      unfold Span.longestSigned nanosPerSecond at *
      rw [if_pos (.inr (by omega)), ofNanos?_eq_none_iff, nanos_first]
      omega
    rw [hnone]
    rfl

/-! ## Sums and differences that are cut off

The clock has the nanoseconds between those of its two ends. A sum can only be too great and a
difference only too small, so each is cut off at one end. -/

/-- The last instant cuts off what lies beyond the end of the clock. -/
theorem nanos_getD_last (h : first.nanos ≤ n) :
    ((ofNanos? n).getD last).nanos = min n last.nanos := by
  cases hfound : ofNanos? n with
  | some u =>
    obtain ⟨hleap, rfl⟩ := ofNanos?_eq_some_iff_nanos.mp hfound
    exact (Int.min_eq_left (nanos_le_last hleap)).symm
  | none =>
    have hbeyond := ofNanos?_eq_none_iff.mp hfound
    show last.nanos = _
    omega

/-- The first instant cuts off what lies before the beginning of the clock. -/
theorem nanos_getD_first (h : n ≤ last.nanos) :
    ((ofNanos? n).getD first).nanos = max n first.nanos := by
  cases hfound : ofNanos? n with
  | some u =>
    obtain ⟨-, rfl⟩ := ofNanos?_eq_some_iff_nanos.mp hfound
    exact (Int.max_eq_left u.nanos_first_le).symm
  | none =>
    have hbeyond := ofNanos?_eq_none_iff.mp hfound
    show first.nanos = _
    omega

/-- **A sum is cut off at the last instant.** -/
theorem nanos_add (ht : t.isLeap = false) (d : Span) :
    (t.add d).nanos = min (t.nanos + d.nanos) last.nanos := by
  have hfirst := t.nanos_first_le
  rw [add_eq_getD, shift?_of_isLeap ht]
  exact nanos_getD_last (by omega)

/-- **A difference is cut off at the first instant.** -/
theorem nanos_sub (ht : t.isLeap = false) (d : Span) :
    (t.sub d).nanos = max (t.nanos - d.nanos) first.nanos := by
  have hlast := nanos_le_last ht
  rw [sub_eq_getD, shift?_of_isLeap ht]
  exact nanos_getD_first (by omega)

theorem isLeap_sub (ht : t.isLeap = false) (d : Span) : (t.sub d).isLeap = false := by
  rw [sub_eq_getD, shift?_of_isLeap ht]
  cases hfound : ofNanos? (t.nanos + -d.nanos) with
  | some u => exact (ofNanos?_eq_some_iff_nanos.mp hfound).1
  | none => rfl

/-! ## What is left -/

/-- **What is left until an instant**, in nanoseconds; nothing once it has been reached. -/
theorem nanos_remaining (ht : t.isLeap = false) (hu : u.isLeap = false) :
    (u.remaining t).map (fun left => (left.nanos : Int)) =
      if t < u then some (u.nanos - t.nanos) else none := by
  split
  · next hahead =>
    cases hleft : u.remaining t with
    | none => exact absurd hahead (not_lt.mpr ((remaining_eq_none_iff ht hu).mp hleft))
    | some left =>
      have hnanos := nanos_of_remaining ht hu hleft
      have hsub : (left.nanos : Int) = u.nanos - t.nanos := by omega
      exact congrArg some hsub
  · next hreached =>
    rw [(remaining_eq_none_iff ht hu).mpr (not_lt.mp hreached)]
    rfl

/-- **What is left leads to the instant.** -/
theorem add_remaining (ht : t.isLeap = false) (hu : u.isLeap = false)
    (h : u.remaining t = some d) : t.add d = u := by
  refine eq_of_nanos (isLeap_add ht d) hu ?_
  rw [nanos_add ht, ← nanos_of_remaining ht hu h]
  exact Int.min_eq_left (nanos_le_last hu)

/-! ## Reckoning outside of leap seconds

Everything is stated in nanoseconds, where it is arithmetic with a cut. A leap second has the
nanoseconds of the second after it, hence the condition that the instants lie outside of it. -/

/-- **How instants and spans are reckoned with**: two instants outside of leap seconds and two
spans, with everything in nanoseconds. -/
structure Reckons (t u : Instant) (d e : Span) : Prop where
  /-- A sum lies outside of leap seconds. -/
  isLeap_add : (t.add d).isLeap = false
  /-- It is cut off at the last instant. -/
  add : (t.add d).nanos = min (t.nanos + d.nanos) last.nanos
  /-- A difference lies outside of leap seconds. -/
  isLeap_sub : (t.sub d).isLeap = false
  /-- It is cut off at the first instant. -/
  sub : (t.sub d).nanos = max (t.nanos - d.nanos) first.nanos
  /-- Who starts later comes no earlier. -/
  add_mono : t ≤ u → t.add d ≤ u.add d
  /-- Who goes back from later comes no earlier. -/
  sub_mono : t ≤ u → t.sub d ≤ u.sub d
  /-- A longer span leads no less far. -/
  add_mono_span : d.nanos ≤ e.nanos → t.add d ≤ t.add e
  /-- A longer span leads back no less far. -/
  sub_anti_span : d.nanos ≤ e.nanos → t.sub e ≤ t.sub d
  /-- What is left until an instant is how far it is ahead, if it is. -/
  remaining : (u.remaining t).map (fun left => (left.nanos : Int)) =
    if t < u then some (u.nanos - t.nanos) else none
  /-- What is left until the end of a span is the span, unless the clock ends before, if that is
  anything. -/
  remaining_add : ((t.add d).remaining t).map (fun left => (left.nanos : Int)) =
    if 0 < min (d.nanos : Int) (last.nanos - t.nanos) then
      some (min (d.nanos : Int) (last.nanos - t.nanos)) else none
  /-- What is left until an instant leads there. -/
  add_remaining : ∀ left, u.remaining t = some left → t.add left = u

/-- **Reckoning saturates at both ends of the clock**, for all spans and all instants outside of
leap seconds.

Monotony follows from the cuts: a minimum with a fixed number grows with the other one. That what
is left leads to the instant needs no cut, since it is reached within the clock. -/
theorem reckons (ht : t.isLeap = false) (hu : u.isLeap = false) (d e : Span) :
    Reckons t u d e where
  isLeap_add := isLeap_add ht d
  add := nanos_add ht d
  isLeap_sub := isLeap_sub ht d
  sub := nanos_sub ht d
  add_mono h := by
    rw [le_iff_nanos ht hu] at h
    rw [le_iff_nanos (isLeap_add ht d) (isLeap_add hu d), nanos_add ht, nanos_add hu]
    omega
  sub_mono h := by
    rw [le_iff_nanos ht hu] at h
    rw [le_iff_nanos (isLeap_sub ht d) (isLeap_sub hu d), nanos_sub ht, nanos_sub hu]
    omega
  add_mono_span h := by
    rw [le_iff_nanos (isLeap_add ht d) (isLeap_add ht e), nanos_add ht, nanos_add ht]
    omega
  sub_anti_span h := by
    rw [le_iff_nanos (isLeap_sub ht e) (isLeap_sub ht d), nanos_sub ht, nanos_sub ht]
    omega
  remaining := nanos_remaining ht hu
  remaining_add := by
    have hleap := isLeap_add ht d
    have hleft : (t.add d).nanos - t.nanos = min (d.nanos : Int) (last.nanos - t.nanos) := by
      rw [nanos_add ht]
      omega
    rw [nanos_remaining ht hleap, ← hleft]
    refine ite_congr (propext ?_) (fun _ => rfl) fun _ => rfl
    rw [lt_iff_nanos ht hleap]
    omega
  add_remaining left h := add_remaining ht hu h

/-- From the epoch to the last instant, with a span that fits in between and the longest one. -/
theorem reckons_of_longest :
    epoch.isLeap = false ∧ last.isLeap = false ∧
      Reckons epoch last (.ofSeconds 90) (.saturate ((1 <<< 64) * 1000000000)) :=
  ⟨rfl, rfl, reckons rfl rfl _ _⟩

end Gathering.Instant
