import Gathering.Task.Transition

/-!
# What transitions keep and change

Each transition happens under its condition and gives one record
(`claim?_eq_some_iff` and its siblings); later proofs cite these equivalences
and leave the transitions closed. Two things are common to all of them. A task
that has reached a final status has no transition any more, and the **origin**
of a task – what its maker said and when – is in every record the same.
-/

namespace Gathering

/-- **What is fixed when a task is made.** -/
structure Origin where
  /-- The identifier. -/
  id : String
  /-- The event. -/
  eventId : String
  /-- The occurrence of an event that repeats. -/
  instanceId : Option String
  /-- What the task does. -/
  action : Action
  /-- When the task becomes due. -/
  scheduledAt : Instant
  /-- How many attempts there are. -/
  maxRetries : Nat
  /-- Whatever the maker of the task has attached to it. -/
  metadata : Json.Value
  /-- When the task was made. -/
  createdAt : Instant

namespace Task

variable {t t' : Task} {owner error : String} {at_ now deadline : Instant}

/-- The part of a record that was fixed when the task was made. -/
def origin (t : Task) : Origin :=
  ⟨t.id, t.eventId, t.instanceId, t.action, t.scheduledAt, t.maxRetries, t.metadata, t.createdAt⟩

theorem isPending_iff : t.isPending = true ↔ t.status = .pending := by
  simp [isPending]

theorem isTerminal_iff : t.status.isTerminal = true ↔ t.status ≠ .pending := by
  simp [TaskStatus.isTerminal]

/-! ## Conditions

What a transition looks at before it happens. The three conditions are stated for tasks of all
kinds; a task that was cut off in the middle of a claim does not occur, but nothing here depends
on that. -/

/-- A task can be claimed while it is pending and no lease is in force. -/
theorem isClaimable_iff :
    t.isClaimable now = true ↔ t.status = .pending ∧ ∀ d, t.claimedUntil = some d → ¬ now < d := by
  unfold isClaimable isLeased
  cases t.claimedUntil <;> simp [isPending]

theorem isHeldBy_iff :
    t.isHeldBy owner = true ↔ t.status = .pending ∧ t.claimedBy = some owner := by
  simp [isHeldBy, isPending]

/-- A pending task is settled by the holder of its claim, or by anybody if nobody holds it. -/
theorem isSettleableBy_iff :
    t.isSettleableBy owner = true ↔
      t.status = .pending ∧ ∀ holder, t.claimedBy = some holder → holder = owner := by
  unfold isSettleableBy
  cases t.claimedBy with
  | none => simp [isPending]
  | some holder => simp [isPending, @eq_comm _ owner]

/-! ## Transitions

Every transition is a condition and a new record. So each of these lemmas says both: when the
transition happens, and what the record is then, to the last field. -/

theorem guarded_eq_some_iff {α : Type} {p : Bool} {a b : α} :
    (if p then some a else none) = some b ↔ p = true ∧ b = a := by
  cases p
  · simp
  · simpa using eq_comm

theorem claim?_eq_some_iff :
    t.claim? owner deadline now = some t' ↔ t.isClaimable now = true ∧
      t' = { t with claimedBy := some owner, claimedUntil := some deadline, updatedAt := now } :=
  guarded_eq_some_iff

theorem extendLease?_eq_some_iff :
    t.extendLease? owner deadline = some t' ↔ t.isHeldBy owner = true ∧
      t' = { t with claimedUntil := some (t.laterDeadline deadline) } :=
  guarded_eq_some_iff

theorem process?_eq_some_iff :
    t.process? owner at_ = some t' ↔
      t.isSettleableBy owner = true ∧ t' = t.finish .processed none at_ :=
  guarded_eq_some_iff

theorem fail?_eq_some_iff :
    t.fail? owner error at_ = some t' ↔
      t.isSettleableBy owner = true ∧ t' = t.finish .failed (some error) at_ :=
  guarded_eq_some_iff

theorem skip?_eq_some_iff :
    t.skip? at_ = some t' ↔ t.isPending = true ∧ t' = t.finish .skipped none at_ :=
  guarded_eq_some_iff

theorem failedAttempt?_eq_some_iff :
    t.failedAttempt? owner error now = some t' ↔ t.isSettleableBy owner = true ∧
      t' = { t with
        retries := t.retries + 1
        errorMessage := some error
        claimedBy := none
        claimedUntil := none
        updatedAt := now } :=
  guarded_eq_some_iff

end Task

end Gathering
