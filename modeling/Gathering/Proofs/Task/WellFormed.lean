import Gathering.Proofs.Task.Transition

/-!
# Well-formed tasks

The fields of a task depend on each other: a claim has a holder and a deadline or
neither, a final status comes with the time at which it was reached and without a
claim, and the error message tells of failed attempts. No transition looks at all
of them, and each has to keep all of them as they should be (`Task.IsWellFormed`).

The fields that a transition writes are few, and for each condition it has to be
said why it still holds. Three of the transitions end a task, and these share one
lemma (`Task.IsWellFormed.finish`).
-/

namespace Gathering

/-- **The fields of a task fit together.** -/
structure Task.IsWellFormed (t : Task) : Prop where
  /-- The task belongs to an event. -/
  event : Text.isBlank t.eventId = false
  /-- There is at least one attempt. -/
  attempts : 1 ≤ t.maxRetries
  /-- The action is read again from its name. -/
  action : Action.parse t.action.name = .ok t.action
  /-- A claim has a holder and a deadline. -/
  claim : t.claimedBy.isSome ↔ t.claimedUntil.isSome
  /-- The time at which the final status was reached is there as soon as it was reached. -/
  processedAt : t.processedAt.isSome ↔ t.status ≠ .pending
  /-- A final status ends every claim. -/
  unclaimed : t.status ≠ .pending → t.claimedBy = none
  /-- A task that has failed says why. -/
  failed : t.status = .failed → ∃ error, t.errorMessage = some error ∧ error ≠ ""
  /-- Any other task has an error message exactly if an attempt has failed. -/
  tried : t.status ≠ .failed → (t.errorMessage.isSome ↔ 0 < t.retries)

namespace Task.IsWellFormed

variable {t t' : Task} {owner error : String} {at_ now deadline : Instant}

theorem of_claim (h : t.IsWellFormed) (hclaim : t.claim? owner deadline now = some t') :
    t'.IsWellFormed := by
  obtain ⟨hclaimable, rfl⟩ := claim?_eq_some_iff.mp hclaim
  have hpending : t.status = .pending := (isClaimable_iff.mp hclaimable).1
  exact { h with
    claim := by simp
    unclaimed := fun hfinal => absurd hpending hfinal }

theorem of_extendLease (h : t.IsWellFormed) (hextended : t.extendLease? owner deadline = some t') :
    t'.IsWellFormed := by
  obtain ⟨hheld, rfl⟩ := extendLease?_eq_some_iff.mp hextended
  obtain ⟨-, howner⟩ := isHeldBy_iff.mp hheld
  exact { h with claim := by simp [howner] }

/-- A task that has reached a final status, with an error exactly if it has failed. -/
theorem finish (h : t.IsWellFormed) (hpending : t.status = .pending) {status : TaskStatus}
    {error? : Option String} (hfinal : status ≠ .pending)
    (hfailed : status = .failed → ∃ error, error? = some error ∧ error ≠ "")
    (hnone : status ≠ .failed → error? = none) : (t.finish status error? at_).IsWellFormed where
  event := h.event
  attempts := h.attempts
  action := h.action
  claim := Iff.rfl
  processedAt := iff_of_true rfl hfinal
  unclaimed _ := rfl
  failed hstatus := by
    obtain ⟨error, rfl, herror⟩ := hfailed hstatus
    exact ⟨error, rfl, herror⟩
  tried hstatus := by
    have htried := h.tried (by rw [hpending]; decide)
    rwa [show (t.finish status error? at_).errorMessage = error?.or t.errorMessage from rfl,
      hnone hstatus]

theorem of_process (h : t.IsWellFormed) (hprocessed : t.process? owner at_ = some t') :
    t'.IsWellFormed := by
  obtain ⟨hsettleable, rfl⟩ := process?_eq_some_iff.mp hprocessed
  exact h.finish (isSettleableBy_iff.mp hsettleable).1 (by decide) (fun h => by cases h)
    fun _ => rfl

theorem of_fail (h : t.IsWellFormed) (herror : error ≠ "")
    (hfailed : t.fail? owner error at_ = some t') : t'.IsWellFormed := by
  obtain ⟨hsettleable, rfl⟩ := fail?_eq_some_iff.mp hfailed
  exact h.finish (isSettleableBy_iff.mp hsettleable).1 (by decide)
    (fun _ => ⟨error, rfl, herror⟩) fun h => absurd rfl h

theorem of_skip (h : t.IsWellFormed) (hskipped : t.skip? at_ = some t') : t'.IsWellFormed := by
  obtain ⟨hpending, rfl⟩ := skip?_eq_some_iff.mp hskipped
  exact h.finish (isPending_iff.mp hpending) (by decide) (fun h => by cases h) fun _ => rfl

theorem of_failedAttempt (h : t.IsWellFormed)
    (hretried : t.failedAttempt? owner error now = some t') : t'.IsWellFormed := by
  obtain ⟨hsettleable, rfl⟩ := failedAttempt?_eq_some_iff.mp hretried
  have hpending : t.status = .pending := (isSettleableBy_iff.mp hsettleable).1
  exact { h with
    claim := Iff.rfl
    unclaimed := fun _ => rfl
    failed := fun hfailed => TaskStatus.noConfusion (hpending.symm.trans hfailed)
    tried := fun _ => iff_of_true rfl (Nat.succ_pos _) }

end Task.IsWellFormed

end Gathering
