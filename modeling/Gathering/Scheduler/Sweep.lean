import Gathering.Scheduler.Outreach

/-!
# Sweeps

A sweep takes on the tasks that are due, the earliest first. Each is claimed,
executed and **settled**: processed if its execution succeeded; failed if it
cannot succeed or this was its last attempt; and else left pending for the next
sweep, with one attempt less.

What happens to one task does not keep the sweep from the next one. A sweep that
was called off claims no further task.
-/

namespace Gathering

/-- How a task was settled. -/
inductive Settlement where
  /-- It was processed. -/
  | processed
  /-- It will be tried again. -/
  | retried
  /-- It has failed. -/
  | failed
  /-- The lease was lost before, so nothing was settled. -/
  | lost
  deriving DecidableEq, Repr

/-- **What a sweep has done.** -/
structure SweepReport where
  /-- How many tasks were due. -/
  due : Nat := 0
  /-- How many were held by others. -/
  contended : Nat := 0
  /-- How many were processed. -/
  processed : Nat := 0
  /-- How many will be tried again. -/
  retried : Nat := 0
  /-- How many have failed. -/
  failed : Nat := 0
  deriving DecidableEq, Repr

namespace SweepReport

/-- Counts a task that is held by others. -/
def countContended (r : SweepReport) : SweepReport := { r with contended := r.contended + 1 }

/-- Counts how a task was settled. -/
def count (r : SweepReport) : Settlement → SweepReport
  | .processed => { r with processed := r.processed + 1 }
  | .retried => { r with retried := r.retried + 1 }
  | .failed => { r with failed := r.failed + 1 }
  | .lost => r

end SweepReport

namespace Scheduler

/-- **Executes the action of a task.** An action that is not known is done by doing nothing. -/
def execute (s : Scheduler) (task : Task) : Job Unit :=
  match task.action with
  | .confirmation => s.reachOut task .confirmation
  | .reminder => s.reachOut task .reminder
  | .location => s.reachOut task .location
  | .closure => Job.roster (.updateEventStatus task.eventId .completed)
  | .unknown _ => pure ()

/-- A settlement that happened, or a lost lease. -/
def ifHappened (happened : Bool) (settlement : Settlement) : Settlement :=
  if happened then settlement else .lost

/-- **Settles a task by the outcome of its execution.** -/
def settle (s : Scheduler) (task : Task) (outcome : Except Error Unit) : Job Settlement := do
  let now ← Job.now
  match outcome with
  | .ok () => return ifHappened (← Job.tasks (.markProcessed task.id s.id now)) .processed
  | .error e =>
    if e.isFinal || task.isLastAttempt then
      return ifHappened (← Job.tasks (.markFailed task.id s.id e.message now)) .failed
    else
      return ifHappened (← Job.tasks (.incrementRetries task.id s.id e.message)).isSome .retried

/-- Claims, executes and settles one task. -/
def sweepTask (s : Scheduler) (report : SweepReport) (task : Task) : Work SweepReport := do
  let now ← Work.now
  let deadline := now.add s.config.claimLease
  match ← Work.request (.tasks (.claim task.id s.id deadline now)) with
  | .error _ => return report
  | .ok none => return report.countContended
  | .ok (some claimed) =>
    let outcome ← (s.execute claimed).run
    match ← (s.settle claimed outcome).run with
    | .error _ => return report
    | .ok settlement => return report.count settlement

/-- Takes on tasks one by one, as long as the sweep is not called off. -/
def sweepTasks (s : Scheduler) (report : SweepReport) : List Task → Work SweepReport
  | [] => return report
  | task :: tasks => do
    if ← Work.isCancelled then return report
    s.sweepTasks (← s.sweepTask report task) tasks

/-- **Takes on the tasks that are due**, so many at most. -/
def sweep (s : Scheduler) (limit : Nat) : Job SweepReport := do
  let due ← Job.tasks (.listDue (← Job.now) limit)
  ExceptT.lift (s.sweepTasks { due := due.length } due)

end Scheduler

end Gathering
