import Gathering.FanOut

/-!
# How long a fan-out takes

Sends to `n` targets, `w` at a time, are over after as many **rounds** as it
takes to cover the targets, `⌈n / w⌉`, each as long as one send may take. The
sends are not made in rounds, though: the next one starts whenever one ends, and
ends come in any order.

What holds at all times is `Paced`. Of the sends that were started, the one with
number `k` (from zero) was started in round `k / w` or before, that is, no later
than `k / w` time limits after the beginning. Which number a send under way has
cannot be told from the machine, because others may have ended; but it is at
most the one that it would have if all the sends that were started after it were
still under way. This bound only grows when a send ends, and it does not change
when one starts.

Time passes only when no send can be started. If targets still wait, the width
is exhausted then, and the oldest send under way bounds how long.
-/

namespace Gathering.FanOut

variable {τ ρ : Type} {begun n clock : Nat} {fan : FanOut τ ρ}

/-- How many sends were started of those to `n` targets. -/
def startedOf (n : Nat) (fan : FanOut τ ρ) : Nat := n - fan.waiting.length

/-- **Sends to `n` targets keep their pace.** -/
structure Paced (begun n : Nat) (fan : FanOut τ ρ) (clock : Nat) : Prop where
  /-- A send can be started when none is under way. -/
  width_pos : 0 < fan.width
  /-- No target is sent to twice. -/
  length_le : fan.waiting.length + fan.flying.length ≤ n
  /-- A send under way was started in its round. -/
  startedAt_le : ∀ (before : List (Flight τ)) (f : Flight τ) (after : List (Flight τ)),
    fan.flying = before ++ f :: after →
      f.startedAt ≤ begun + (startedOf n fan - 1 - after.length) / fan.width * fan.limit
  /-- It ends when the time limit is reached. -/
  endsAt_le : ∀ f ∈ fan.flying, f.endsAt ≤ f.startedAt + fan.limit
  /-- It has not been forgotten. -/
  clock_le_endsAt : ∀ f ∈ fan.flying, clock ≤ f.endsAt
  /-- The next send is started in its round. -/
  clock_le : fan.waiting ≠ [] → clock ≤ begun + startedOf n fan / fan.width * fan.limit

theorem startable?_eq_some_iff {t : τ} {ts : List τ} :
    fan.startable? = some (t, ts) ↔ fan.waiting = t :: ts ∧ fan.flying.length < fan.width := by
  unfold startable?
  cases fan.waiting with
  | nil => simp
  | cons u us =>
    show (if fan.flying.length < fan.width then some (u, us) else none) = _ ↔ _
    split
    · next h => simp [h]
    · next h => simp [h]

theorem isOver_eq_false_of_startable {t : τ} {ts : List τ} (h : fan.startable? = some (t, ts)) :
    fan.isOver = false := by
  unfold isOver
  rw [(startable?_eq_some_iff.mp h).1]
  rfl

theorem isOver_eq_false_of_flying {before after : List (Flight τ)} {f : Flight τ}
    (h : fan.flying = before ++ f :: after) : fan.isOver = false := by
  unfold isOver
  rw [h]
  simp

/-- Nothing can be started when nobody waits or as many sends are under way as may be. -/
theorem startable?_eq_none_iff :
    fan.startable? = none ↔ fan.waiting = [] ∨ fan.width ≤ fan.flying.length := by
  unfold startable?
  cases fan.waiting with
  | nil => simp
  | cons u us =>
    show (if fan.flying.length < fan.width then some (u, us) else none) = none ↔ _
    split
    · next h => simp [h]
    · next h => simpa using h

/-- At the beginning nothing is late. -/
theorem Paced.begin (hwidth : 0 < fan.width) (hflying : fan.flying = [])
    (hn : fan.waiting.length = n) : Paced begun n fan begun where
  width_pos := hwidth
  length_le := by rw [hflying, hn]; exact Nat.le_refl n
  startedAt_le _ _ _ h := by rw [hflying] at h; simp at h
  endsAt_le _ h := by rw [hflying] at h; cases h
  clock_le_endsAt _ h := by rw [hflying] at h; cases h
  clock_le _ := Nat.le_add_right _ _

/-- **A send that is started keeps the pace.**

The number of sends that were started grows by one, and so does the number of those that were
started after each send under way; so its bound stays as it is. For the new send the bound is that
of the clock. -/
theorem Paced.start (h : Paced begun n fan clock) {t : τ} {ts : List τ}
    (hstart : fan.startable? = some (t, ts)) (duration : Nat) :
    Paced begun n (fan.start (fan.flight t clock duration) ts) clock := by
  obtain ⟨hwaiting, hroom⟩ := startable?_eq_some_iff.mp hstart
  have hlength := h.length_le
  have hnext := h.clock_le (by rw [hwaiting]; exact List.cons_ne_nil t ts)
  rw [hwaiting, List.length_cons] at hlength
  -- one more was started, and one more was started after each send under way
  have hcount : startedOf n fan + 1 = startedOf n (fan.start (fan.flight t clock duration) ts) := by
    show n - fan.waiting.length + 1 = n - ts.length
    rw [hwaiting, List.length_cons]
    omega
  refine ⟨h.width_pos, ?_, fun before f after hsplit => ?_, fun f hf => ?_, fun f hf => ?_,
    fun _ => ?_⟩
  · show ts.length + (fan.flying ++ [_]).length ≤ n
    rw [List.length_append, List.length_singleton]
    omega
  · rw [← hcount]
    show f.startedAt ≤ begun + (startedOf n fan + 1 - 1 - after.length) / fan.width * fan.limit
    change fan.flying ++ [_] = _ at hsplit
    rcases List.eq_nil_or_concat after with rfl | ⟨rest, last, rfl⟩
    · obtain ⟨_, hlast⟩ := List.append_inj' hsplit rfl
      cases hlast
      exact hnext
    · rw [List.concat_eq_append] at hsplit ⊢
      rw [← List.cons_append, ← List.append_assoc] at hsplit
      obtain ⟨hflying, _⟩ := List.append_inj' hsplit rfl
      have hold := h.startedAt_le before f rest hflying
      rw [List.length_append, List.length_singleton]
      rwa [show startedOf n fan + 1 - 1 - (rest.length + 1) = startedOf n fan - 1 - rest.length by
        omega]
  · rcases List.mem_append.mp hf with hf | hf
    · exact h.endsAt_le f hf
    · rw [List.mem_singleton.mp hf]
      exact Nat.add_le_add_left (Nat.min_le_right _ _) _
  · rcases List.mem_append.mp hf with hf | hf
    · exact h.clock_le_endsAt f hf
    · rw [List.mem_singleton.mp hf]
      exact Nat.le_add_right _ _
  · rw [← hcount]
    refine Nat.le_trans hnext (Nat.add_le_add_left (Nat.mul_le_mul_right _ ?_) _)
    exact Nat.div_le_div_right (Nat.le_succ _)

/-- **A send that ends keeps the pace.**

For the sends that were started after it nothing changes. For those before it one less is under
way behind them, so that their bounds can only grow. -/
theorem Paced.land (h : Paced begun n fan clock) {before after : List (Flight τ)} {f : Flight τ}
    (hflying : fan.flying = before ++ f :: after) (result : ρ) :
    Paced begun n (fan.land f (before ++ after) result) clock := by
  have hmem : ∀ g ∈ before ++ after, g ∈ fan.flying := fun g hg => by
    rw [hflying]
    rcases List.mem_append.mp hg with hg | hg
    · exact List.mem_append_left _ hg
    · exact List.mem_append_right _ (List.mem_cons_of_mem _ hg)
  have hlength := h.length_le
  rw [hflying, List.length_append, List.length_cons] at hlength
  refine ⟨h.width_pos, ?_, fun before' g after' hsplit => ?_, fun g hg => h.endsAt_le g (hmem g hg),
    fun g hg => h.clock_le_endsAt g (hmem g hg), h.clock_le⟩
  · show fan.waiting.length + (before ++ after).length ≤ n
    rw [List.length_append]
    omega
  · change before ++ after = _ at hsplit
    show g.startedAt ≤ begun + (startedOf n fan - 1 - after'.length) / fan.width * fan.limit
    rcases List.append_eq_append_iff.mp hsplit with ⟨middle, rfl, hafter⟩ | ⟨middle, rfl, hafter⟩
    · -- it was started after the one that ends
      refine h.startedAt_le (before ++ f :: middle) g after' ?_
      rw [hflying, hafter]
      simp
    · cases middle with
      | nil =>
        rw [List.nil_append] at hafter
        refine h.startedAt_le (before' ++ [f]) g after' ?_
        rw [hflying, ← hafter]
        simp
      | cons _ middle =>
        -- it was started before, and one less is under way after it
        rw [List.cons_append] at hafter
        obtain ⟨rfl, rfl⟩ := List.cons.inj hafter
        have hold := h.startedAt_le before' g (middle ++ f :: after) (by
          rw [hflying]
          simp)
        refine Nat.le_trans hold (Nat.add_le_add_left (Nat.mul_le_mul_right _ ?_) _)
        refine Nat.div_le_div_right (Nat.sub_le_sub_left ?_ _)
        rw [List.length_append, List.length_append, List.length_cons]
        omega

/-- **Time that passes while no send can be started** and none has reached its end keeps the pace.

If targets still wait, as many sends are under way as may be. The oldest of them has at least
`width - 1` others behind it, so it was started one round before the one that is next, and it ends
within one more limit. -/
theorem Paced.pass (h : Paced begun n fan clock) {clock' : Nat} (hfull : fan.startable? = none)
    (hends : ∀ f ∈ fan.flying, clock' ≤ f.endsAt) : Paced begun n fan clock' := by
  refine ⟨h.width_pos, h.length_le, h.startedAt_le, h.endsAt_le, hends, fun hwaiting => ?_⟩
  have hwidth : fan.width ≤ fan.flying.length :=
    (startable?_eq_none_iff.mp hfull).resolve_left hwaiting
  have hpos := h.width_pos
  have hlength := h.length_le
  -- the oldest send under way was started one round ago
  cases hflying : fan.flying with
  | nil =>
    rw [hflying, List.length_nil] at hwidth
    omega
  | cons f after =>
    have hmem : f ∈ fan.flying := by rw [hflying]; exact List.mem_cons_self
    have hstarted := h.startedAt_le [] f after hflying
    have hend := Nat.le_trans (hends f hmem) (h.endsAt_le f hmem)
    rw [hflying, List.length_cons] at hwidth hlength
    have hround : (startedOf n fan - 1 - after.length) / fan.width + 1 ≤
        startedOf n fan / fan.width := by
      rw [← Nat.add_div_right _ hpos]
      refine Nat.div_le_div_right ?_
      unfold startedOf
      omega
    have hlimit := Nat.mul_le_mul_right fan.limit hround
    rw [Nat.add_mul, Nat.one_mul] at hlimit
    omega

/-- **A send that keeps its pace ends with the last round** at the latest. -/
theorem Paced.endsAt_le_rounds (h : Paced begun n fan clock) {f : Flight τ} (hf : f ∈ fan.flying) :
    f.endsAt ≤ begun + (n + fan.width - 1) / fan.width * fan.limit := by
  have hpos := h.width_pos
  have hlength := h.length_le
  obtain ⟨before, after, hflying⟩ := List.append_of_mem hf
  have hstarted := h.startedAt_le before f after hflying
  have hend := h.endsAt_le f hf
  have hround : (startedOf n fan - 1 - after.length) / fan.width + 1 ≤
      (n + fan.width - 1) / fan.width := by
    rw [← Nat.add_div_right _ hpos]
    refine Nat.div_le_div_right ?_
    rw [hflying, List.length_append, List.length_cons] at hlength
    unfold startedOf
    omega
  have hlimit := Nat.mul_le_mul_right fan.limit hround
  rw [Nat.add_mul, Nat.one_mul] at hlimit
  omega

/-- **Sends that keep their pace are over when the last round is.** -/
theorem Paced.clock_le_rounds (h : Paced begun n fan clock) (hover : ¬ fan.isOver = true) :
    clock ≤ begun + (n + fan.width - 1) / fan.width * fan.limit := by
  by_cases hwaiting : fan.waiting = []
  · have hflying : fan.flying ≠ [] := fun hflying => hover (by simp [isOver, hwaiting, hflying])
    obtain ⟨f, hf⟩ := List.exists_mem_of_ne_nil _ hflying
    exact Nat.le_trans (h.clock_le_endsAt f hf) (h.endsAt_le_rounds hf)
  · refine Nat.le_trans (h.clock_le hwaiting) (Nat.add_le_add_left (Nat.mul_le_mul_right _ ?_) _)
    refine Nat.div_le_div_right ?_
    have hpos := h.width_pos
    have hsome := List.length_pos_iff.mpr hwaiting
    unfold startedOf
    omega

end Gathering.FanOut
