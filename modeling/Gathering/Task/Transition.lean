import Gathering.Task.Basic

/-!
# Transitions of a task

What may happen to a stored task. Each transition has a condition; where it does
not hold, the transition does not happen and the task stays as it is.

* A task can be **claimed** while it is pending and no lease is in force.
* A lease can be **extended** by its holder, and it only moves forward.
* A task is **settled** – processed, failed, or given another attempt – by the
  holder of its claim, or by anybody if nobody has claimed it.
* A task is **skipped** by anybody, whoever holds the claim.

Every transition needs the task to be pending, so a final status stays.
-/

namespace Gathering.Task

/-- The task under a new lease, if it can be claimed. -/
def claim? (t : Task) (owner : String) (deadline now : Instant) : Option Task :=
  if t.isClaimable now then
    some { t with claimedBy := some owner, claimedUntil := some deadline, updatedAt := now }
  else none

/-- Whether a task is pending and claimed by a sweeper. -/
def isHeldBy (t : Task) (owner : String) : Bool :=
  t.isPending && t.claimedBy == some owner

/-- The later of the end of the lease and a new deadline. -/
def laterDeadline (t : Task) (deadline : Instant) : Instant :=
  match t.claimedUntil with
  | some held => if held < deadline then deadline else held
  | none => deadline

/-- The task under a lease that lasts at least until a deadline, if the owner holds it. -/
def extendLease? (t : Task) (owner : String) (deadline : Instant) : Option Task :=
  if t.isHeldBy owner then some { t with claimedUntil := some (t.laterDeadline deadline) } else none

/-- Whether a sweeper may settle the task. -/
def isSettleableBy (t : Task) (owner : String) : Bool :=
  t.isPending &&
    match t.claimedBy with
    | some holder => owner == holder
    | none => true

/-- The task with a final status, without a claim, and with an error if one is given. -/
def finish (t : Task) (status : TaskStatus) (error : Option String) (at_ : Instant) : Task :=
  { t with
    status := status
    processedAt := some at_
    updatedAt := at_
    claimedBy := none
    claimedUntil := none
    errorMessage := error.or t.errorMessage }

/-- The task processed, if the owner may settle it. -/
def process? (t : Task) (owner : String) (at_ : Instant) : Option Task :=
  if t.isSettleableBy owner then some (t.finish .processed none at_) else none

/-- The task failed with an error, if the owner may settle it. -/
def fail? (t : Task) (owner error : String) (at_ : Instant) : Option Task :=
  if t.isSettleableBy owner then some (t.finish .failed (some error) at_) else none

/-- The task skipped, if it is pending. -/
def skip? (t : Task) (at_ : Instant) : Option Task :=
  if t.isPending then some (t.finish .skipped none at_) else none

/-- The task with one more failed attempt, its error recorded and its claim released, if the owner
may settle it. -/
def failedAttempt? (t : Task) (owner error : String) (now : Instant) : Option Task :=
  if t.isSettleableBy owner then
    some
      { t with
        retries := t.retries + 1
        errorMessage := some error
        claimedBy := none
        claimedUntil := none
        updatedAt := now }
  else none

end Gathering.Task
