import Gathering.Proofs.Crew.Budget
import Gathering.Proofs.Crew.Solo

/-!
# Overdrawn budgets

The bound on the failed attempts of a task is the best there is. Every sweeper
of a crew claims the task in turn, each when the lease of the one before it is
over, and so each of them sees the task before any attempt has failed. Then the
attempts fail: first that of the last sweeper, who holds the task, and after it,
since nobody holds the task any more, all the others (`exists_overdrawn`).

So a crew keeps the budgets of its tasks exactly if it has two sweepers at most.

The task is one whose attempts extend no lease, so that its holder can lose it while
it is busy: it closes an event, and the store of events does not answer. Time passes
as it has to between the claims, and no user interferes.

Two inductions over the list of sweepers make up the run, one for the claims and one
for the failures. What they go by is that the task stays open (`Task.IsOpen`), with
none or some of its attempts failed.
-/

namespace Gathering

/-- **A task that is due at any time**, closes its event, and has two attempts of which so many
have failed. -/
structure Task.IsOpen (x : String) (failed : Nat) (t : Task) : Prop where
  /-- It is known by this identifier. -/
  id : t.id = x
  /-- To do it is to close its event, which needs no extension of the lease. -/
  action : t.action = .closure
  /-- It has not been settled. -/
  pending : t.status = .pending
  /-- It has been due since the clock began. -/
  due : t.scheduledAt = .first
  /-- It may be attempted twice. -/
  attempts : t.maxRetries = 2
  /-- So many attempts have failed. -/
  retries : t.retries = failed

/-- Whether a sweeper is at an attempt, and has seen the task before any attempt has failed. -/
def Scheduler.IsAttempting (s : Scheduler) (x : String) (hand : Hand) : Prop :=
  ∃ t k, hand = .working (s.carryOut t k) ∧ t.IsOpen x 0

namespace Crew

variable {ι : Type} [DecidableEq ι] {S : Setting ι} {c c' c'' : Crew ι} {hands : ι → Hand} {i : ι}
  {t : Task} {x : String} {clock n : Nat}

/-- **What the sweepers do to a crew on their own**: no user calls the store meanwhile. -/
def Sweeps (S : Setting ι) (c c' : Crew ι) : Prop :=
  ∃ es, Run S (fun _ _ => True) c es c' ∧ ∀ call answer, .called call answer ∉ es

theorem Sweeps.refl (c : Crew ι) : Sweeps S c c :=
  ⟨[], .nil c, fun _ _ h => by cases h⟩

theorem Sweeps.trans (h : Sweeps S c c') (h' : Sweeps S c' c'') : Sweeps S c c'' := by
  obtain ⟨es, run, hnone⟩ := h
  obtain ⟨es', run', hnone'⟩ := h'
  refine ⟨es ++ es', run.append run', fun call answer hmem => ?_⟩
  rcases List.mem_append.mp hmem with hmem | hmem
  · exact hnone call answer hmem
  · exact hnone' call answer hmem

theorem Sweeps.passed (c : Crew ι) (nanos : Nat) :
    Sweeps S c ⟨c.clock + nanos, c.tasks, c.hands⟩ :=
  ⟨[.passed nanos], .single (.passed nanos trivial), fun _ _ h => by
    rw [List.mem_singleton] at h
    cases h⟩

theorem Sweeps.of_goes {hand' : Hand} {tasks tasks' : TaskStore} {ds : List Deed}
    (h : Hand.Goes (S.scheduler i) clock (S.wall.elapsed clock) (hands i) tasks ds hand' tasks') :
    Sweeps S ⟨clock, tasks, hands⟩ ⟨clock, tasks', Function.update hands i hand'⟩ := by
  refine ⟨ds.map (.by_ i), Run.of_goes h rfl, fun call answer hmem => ?_⟩
  rw [List.mem_map] at hmem
  obtain ⟨d, _, hd⟩ := hmem
  cases hd

/-! ## Claims

The lease of a task ends one day because it was reckoned from a time of the clock; that is kept as
`Ends`, since the next claim has to wait for it. -/

/-- Whether the lease of a task, if it has one, is over one day. -/
def Ends (S : Setting ι) (clock : Nat) (t : Task) : Prop :=
  ∀ d, t.claimedUntil = some d → ∃ nanos, d = S.wall.elapsed (clock + nanos)

omit [DecidableEq ι] in
theorem Ends.exists_not_lt (h : Ends S clock t) :
    ∃ nanos, ∀ d, t.claimedUntil = some d → ¬ S.wall.elapsed (clock + nanos) < d := by
  cases hlease : t.claimedUntil with
  | none => exact ⟨0, fun d hd => by cases hd⟩
  | some d =>
    obtain ⟨nanos, rfl⟩ := h d hlease
    refine ⟨nanos, fun d hd => ?_⟩
    cases hd
    exact Instant.not_lt.mpr (Instant.le_refl _)

/-- A sweeper that is idle claims the task when the lease of whoever holds it is over. -/
theorem exists_claim (hopen : t.IsOpen x 0) (hends : Ends S clock t) (hidle : hands i = .idle) :
    ∃ clock' t' hand', Sweeps S ⟨clock, .only t, hands⟩
        ⟨clock', .only t', Function.update hands i hand'⟩ ∧
      t'.IsOpen x 0 ∧ Ends S clock' t' ∧ t'.claimedBy = some (S.scheduler i).id ∧
        (S.scheduler i).IsAttempting x hand' := by
  obtain ⟨nanos, hover⟩ := hends.exists_not_lt
  let now := S.wall.elapsed (clock + nanos)
  have hopen' : ((S.scheduler i).claimed t now).IsOpen x 0 :=
    ⟨hopen.id, hopen.action, hopen.pending, hopen.due, hopen.attempts, hopen.retries⟩
  have hends' : Ends S (clock + nanos) ((S.scheduler i).claimed t now) := by
    intro d hd
    cases hd
    exact ⟨(S.scheduler i).config.claimLease.nanos, S.wall.elapsed_add _ _⟩
  have hdue : t.scheduledAt ≤ now := by
    rw [hopen.due]
    exact now.first_le_self
  obtain ⟨k, hclaims⟩ := (S.scheduler i).goes_claim (clock + nanos) hdue
    (Task.isClaimable_iff.mpr ⟨hopen.pending, hover⟩)
  have hgoes := hclaims [] _ _ (.nil _ _)
  rw [← hidle] at hgoes
  exact ⟨clock + nanos, _, _, (Sweeps.passed _ nanos).trans (.of_goes hgoes), hopen', hends', rfl,
    _, k, rfl, hopen'⟩

/-- One sweeper after the other claims the task.

By induction on the list. The first one claims it and is at its attempt from then on; the others
come later and take the task over, but not the attempt. -/
theorem exists_claims {l : List ι} (hl : l.Nodup) (hopen : t.IsOpen x 0) (hends : Ends S clock t)
    (hidle : ∀ i ∈ l, hands i = .idle) :
    ∃ clock' t' hands', Sweeps S ⟨clock, .only t, hands⟩ ⟨clock', .only t', hands'⟩ ∧
      t'.IsOpen x 0 ∧ Ends S clock' t' ∧
        (∀ i ∈ l, (S.scheduler i).IsAttempting x (hands' i)) ∧
          ∀ j, j ∉ l → hands' j = hands j := by
  induction l generalizing clock t hands with
  | nil =>
    refine ⟨clock, t, hands, .refl _, hopen, hends, fun i hi => ?_, fun _ _ => rfl⟩
    cases hi
  | cons i l ih =>
    obtain ⟨hi, hl⟩ := List.nodup_cons.mp hl
    obtain ⟨clock₁, t₁, hand, hfirst, hopen₁, hends₁, _, hattempting⟩ :=
      exists_claim hopen hends (hidle i List.mem_cons_self)
    have hothers : ∀ j, j ≠ i → Function.update hands i hand j = hands j :=
      fun j hj => Function.update_of_ne hj _ _
    obtain ⟨clock', t', hands', hrest, hopen', hends', hall, hkept⟩ :=
      ih hl hopen₁ hends₁ fun j hj =>
        (hothers j fun h => hi (h ▸ hj)).trans (hidle j (List.mem_cons_of_mem i hj))
    refine ⟨clock', t', hands', hfirst.trans hrest, hopen', hends', fun j hj => ?_, fun j hj => ?_⟩
    · rcases List.mem_cons.mp hj with rfl | hj
      · rw [hkept j hi, Function.update_self]
        exact hattempting
      · exact hall j hj
    · rw [List.mem_cons, not_or] at hj
      rw [hkept j hj.2]
      exact hothers j hj.1

/-! ## Failures -/

/-- The attempt of a sweeper fails, if it holds the task or nobody does. -/
theorem exists_failure (clock : Nat) (hopen : t.IsOpen x n)
    (hholder : ∀ holder, t.claimedBy = some holder → holder = (S.scheduler i).id)
    (hattempting : (S.scheduler i).IsAttempting x (hands i)) :
    ∃ t' hand', Sweeps S ⟨clock, .only t, hands⟩
        ⟨clock, .only t', Function.update hands i hand'⟩ ∧
      t'.IsOpen x (n + 1) ∧ t'.claimedBy = none := by
  obtain ⟨seen, k, hhand, hseen⟩ := hattempting
  let now := S.wall.elapsed clock
  have hopen' : (Scheduler.failedOnce t now).IsOpen x (n + 1) :=
    ⟨hopen.id, hopen.action, hopen.pending, hopen.due, hopen.attempts,
      congrArg (· + 1) hopen.retries⟩
  have hleft : seen.isLastAttempt = false := by
    unfold Task.isLastAttempt
    rw [hseen.attempts, hseen.retries]
    rfl
  have hgoes := (S.scheduler i).goes_fail clock now hseen.action hleft
    (hopen.id.trans hseen.id.symm) (Task.isSettleableBy_iff.mpr ⟨hopen.pending, hholder⟩) k
  rw [← hhand] at hgoes
  exact ⟨_, _, .of_goes hgoes, hopen', rfl⟩

/-- When nobody holds the task, one attempt after the other fails. -/
theorem exists_failures {l : List ι} (hl : l.Nodup) (clock : Nat) (hopen : t.IsOpen x n)
    (hfree : t.claimedBy = none)
    (hattempting : ∀ i ∈ l, (S.scheduler i).IsAttempting x (hands i)) :
    ∃ t' hands', Sweeps S ⟨clock, .only t, hands⟩ ⟨clock, .only t', hands'⟩ ∧
      t'.IsOpen x (n + l.length) := by
  induction l generalizing t n hands with
  | nil => exact ⟨t, hands, .refl _, hopen⟩
  | cons i l ih =>
    obtain ⟨hi, hl⟩ := List.nodup_cons.mp hl
    have hholder : ∀ holder, t.claimedBy = some holder → holder = (S.scheduler i).id := by
      intro holder h
      rw [hfree] at h
      cases h
    obtain ⟨t₁, hand, hfirst, hopen₁, hfree₁⟩ :=
      exists_failure clock hopen hholder (hattempting i List.mem_cons_self)
    have hothers : ∀ j ∈ l, (S.scheduler j).IsAttempting x (Function.update hands i hand j) := by
      intro j hj
      have hji : j ≠ i := fun h => hi (h ▸ hj)
      rw [Function.update_of_ne hji]
      exact hattempting j (List.mem_cons_of_mem i hj)
    obtain ⟨t', hands', hrest, hopen'⟩ := ih hl hopen₁ hfree₁ hothers
    refine ⟨t', hands', hfirst.trans hrest, ?_⟩
    rw [List.length_cons, Nat.add_comm l.length, ← Nat.add_assoc]
    exact hopen'

/-! ## The budget of a crew -/

theorem exists_made (x : String) (now : Instant) :
    ∃ t, Scheduler.closureDraft.make 1 x now = .ok t ∧ t.IsOpen x 0 ∧ t.claimedUntil = none := by
  have hmake : Scheduler.closureDraft.make 1 x now =
      .ok (Scheduler.closureDraft.toTask ⟨.closure, .first, 2⟩ x now) := by
    unfold TaskDraft.make
    rw [Scheduler.check_closureDraft]
    rfl
  exact ⟨_, hmake, ⟨rfl, rfl, rfl, rfl, rfl, rfl⟩, rfl⟩

variable [Fintype ι]

/-- All sweepers come to be at an attempt, and one of them holds the task. -/
theorem exists_all_attempting (i : ι) (hopen : t.IsOpen x 0) (hends : Ends S clock t) :
    ∃ clock' t' hands, Sweeps S ⟨clock, .only t, fun _ => .idle⟩ ⟨clock', .only t', hands⟩ ∧
      t'.IsOpen x 0 ∧ t'.claimedBy = some (S.scheduler i).id ∧
        ∀ j, (S.scheduler j).IsAttempting x (hands j) := by
  -- who claims the task last holds it
  have hothers : (Finset.univ.erase i).toList.Nodup := Finset.nodup_toList _
  have hlast : i ∉ (Finset.univ.erase i).toList := by
    rw [Finset.mem_toList]
    exact Finset.notMem_erase i _
  have hidle : ∀ j ∈ (Finset.univ.erase i).toList, (fun _ => Hand.idle : ι → Hand) j = .idle :=
    fun _ _ => rfl
  obtain ⟨clock₁, t₁, hands, hfirst, hopen₁, hends₁, hall, hkept⟩ :=
    exists_claims hothers hopen hends hidle
  obtain ⟨clock', t', hand, hclaim, hopen', _, hheld, hattempting⟩ :=
    exists_claim hopen₁ hends₁ (hkept i hlast)
  refine ⟨clock', t', _, hfirst.trans hclaim, hopen', hheld, fun j => ?_⟩
  by_cases hji : j = i
  · subst hji
    rw [Function.update_self]
    exact hattempting
  · rw [Function.update_of_ne hji]
    refine hall j ?_
    rw [Finset.mem_toList]
    exact Finset.mem_erase.mpr ⟨hji, Finset.mem_univ j⟩

/-- All attempts fail, that of the holder first. -/
theorem exists_all_failed (clock : Nat) (hopen : t.IsOpen x 0)
    (hheld : t.claimedBy = some (S.scheduler i).id)
    (hall : ∀ j, (S.scheduler j).IsAttempting x (hands j)) :
    ∃ t' hands', Sweeps S ⟨clock, .only t, hands⟩ ⟨clock, .only t', hands'⟩ ∧
      t'.IsOpen x (Fintype.card ι) := by
  have hholder : ∀ holder, t.claimedBy = some holder → holder = (S.scheduler i).id := by
    intro holder h
    rw [hheld] at h
    cases h
    rfl
  obtain ⟨t₁, hand, hfirst, hopen₁, hfree⟩ := exists_failure clock hopen hholder (hall i)
  have hothers : (Finset.univ.erase i).toList.Nodup := Finset.nodup_toList _
  have hstill : ∀ j ∈ (Finset.univ.erase i).toList,
      (S.scheduler j).IsAttempting x (Function.update hands i hand j) := by
    intro j hj
    rw [Finset.mem_toList] at hj
    rw [Function.update_of_ne (Finset.ne_of_mem_erase hj)]
    exact hall j
  obtain ⟨t', hands', hrest, hopen'⟩ := exists_failures hothers clock hopen₁ hfree hstill
  have hcard : 0 + 1 + (Finset.univ.erase i).toList.length = Fintype.card ι := by
    rw [Finset.length_toList, Nat.zero_add, Nat.add_comm]
    exact Finset.card_erase_add_one (Finset.mem_univ i)
  rw [hcard] at hopen'
  exact ⟨t', hands', hfirst.trans hrest, hopen'⟩

/-- **Every crew can overdraw a budget**: a task with two attempts fails once for every sweeper,
and is pending still.

A user makes the task, all sweepers claim it one after the other, and then all attempts fail. What
each of them has seen is the task without any failed attempt, so each asks for another one. -/
theorem exists_overdrawn [Nonempty ι] (S : Setting ι) (x : String) :
    ∃ es c t, Run S (fun _ _ => True) start es c ∧
      (∀ u, .called (.insert u) (.ok ()) ∈ es → u.IsMade) ∧
        c.tasks.find? x = some t ∧ t.IsOpen x (Fintype.card ι) := by
  obtain ⟨t₀, hmake, hopen₀, hlease⟩ := exists_made x S.wall
  have hinsert : Step S (fun _ _ => True) start (.called (.insert t₀) (.ok ()))
      ⟨0, .only t₀, fun _ => .idle⟩ := .called (.insert t₀) rfl
  have hends : Ends S 0 t₀ := by
    intro d hd
    rw [hlease] at hd
    cases hd
  obtain ⟨clock, t₁, hands, hclaims, hopen₁, hheld, hall⟩ :=
    exists_all_attempting (Classical.arbitrary ι) hopen₀ hends
  obtain ⟨t, hands', hfails, hopen⟩ := exists_all_failed clock hopen₁ hheld hall
  obtain ⟨es, run, hnone⟩ := hclaims.trans hfails
  refine ⟨.called (.insert t₀) (.ok ()) :: es, _, t, (Run.single hinsert).append run,
    fun u hu => ?_, ?_, hopen⟩
  · rcases List.mem_cons.mp hu with hu | hu
    · cases hu
      exact ⟨Scheduler.closureDraft, 1, x, S.wall, hmake⟩
    · exact absurd hu (hnone _ _)
  · rw [← hopen.id]
    exact TaskStore.find?_only t

/-- **How a task can stand in a crew** that adds no other task under its identifier than one that
was made. Time may pass as it likes, so that leases may end at any moment. -/
def Reaches (S : Setting ι) (t : Task) : Prop :=
  ∃ es c, Run S (fun _ _ => True) start es c ∧
    (∀ u, .called (.insert u) (.ok ()) ∈ es → u.id = t.id → u.IsMade) ∧
      c.tasks.find? t.id = some t

/-- **The retry budget of a crew**, whatever its sweepers are called. How often a pending task has
failed stays two below what it allows and the number of sweepers together. So exactly the crews of
at most two keep the budget of every task. Nor does the next attempt leave the 32 bits of the
count, if they have room for what a crew of this size can overdraw.

The first part is the invariant of `Run.budgeted`, and gives one direction of the second and the
third. The other direction of the second is the run of `exists_overdrawn`: with three sweepers or
more the task that it leaves has failed more often than it may. -/
theorem retry_budget (S : Setting ι) :
    (∀ t, Reaches S t → t.status = .pending →
      t.retries + 2 ≤ t.maxRetries + max (Fintype.card ι) 1) ∧
    ((∀ t, Reaches S t → t.status = .pending → t.retries ≤ t.maxRetries) ↔ Fintype.card ι ≤ 2) ∧
    (∀ t, Reaches S t → t.status = .pending →
      t.maxRetries + max (Fintype.card ι) 1 ≤ Task.retryBound →
        t.retries + 1 < Task.retryBound) := by
  have hbound : ∀ t, Reaches S t → t.status = .pending →
      t.retries + 2 ≤ t.maxRetries + max (Fintype.card ι) 1 := by
    rintro t ⟨es, c, run, hmade, hfind⟩ hpending
    exact run.retries_add_two_le hmade hfind hpending
  refine ⟨hbound, ⟨fun hkeeps => ?_, fun hcard t ht hpending => ?_⟩, fun t ht hpending hroom => ?_⟩
  · by_contra hcard
    have hsome : Nonempty ι := Fintype.card_pos_iff.mp (by omega)
    obtain ⟨es, c, t, run, hmade, hfind, hopen⟩ := exists_overdrawn S "task"
    rw [← hopen.id] at hfind
    have hkept := hkeeps t ⟨es, c, run, fun u hu _ => hmade u hu, hfind⟩ hopen.pending
    rw [hopen.retries, hopen.attempts] at hkept
    exact hcard hkept
  · have h := hbound t ht hpending
    omega
  · have h := hbound t ht hpending
    omega

/-- Three sweepers with names of their own and the settings that hold by default. -/
def threeSweepers : Setting (Fin 3) where
  wall := .epoch
  scheduler i := ⟨["first", "second", "third"].get i, {}⟩

/-- **Three sweepers overdraw a budget**: a task that allows two attempts has failed three times and
is pending. -/
theorem exists_overdrawn_of_three :
    (Function.Injective fun i => (threeSweepers.scheduler i).id) ∧
      ∃ t, Reaches threeSweepers t ∧ t.status = .pending ∧ t.maxRetries = 2 ∧ t.retries = 3 := by
  refine ⟨by decide, ?_⟩
  obtain ⟨es, c, t, run, hmade, hfind, hopen⟩ := exists_overdrawn threeSweepers "task"
  rw [← hopen.id] at hfind
  exact ⟨t, ⟨es, c, run, fun u hu _ => hmade u hu, hfind⟩, hopen.pending, hopen.attempts,
    hopen.retries⟩

end Crew

end Gathering
