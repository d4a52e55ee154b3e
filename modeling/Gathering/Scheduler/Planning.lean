import Gathering.Request

/-!
# Making and cancelling tasks

A task is made from a draft, or from the plan of an event. Only a pending task
can be cancelled; between looking at a task and cancelling it a sweep may finish
it, and then the cancellation is refused as well.
-/

namespace Gathering.Scheduler

/-- **Makes a task from a draft.** -/
def create (s : Scheduler) (draft : TaskDraft) : Job Task := do
  let now ← Job.now
  let sound ← Job.checked (draft.check s.config.maxRetries)
  let id ← ExceptT.lift Work.freshId
  let task := draft.toTask sound id now
  Job.tasks (.insert task)
  return task

/-- The task of an identifier. -/
def getById (id : String) : Job Task := do
  Job.found "task" id (← Job.tasks (.get id))

/-- The tasks of an event. -/
def listByEvent (eventId : String) : Job (List Task) :=
  Job.tasks (.listByEvent eventId)

/-- **Cancels a pending task.** -/
def cancel (id : String) : Job Unit := do
  let task ← getById id
  if task.status ≠ .pending then
    throw (.invalidInput
      ("task " ++ id ++ " is " ++ task.status.name ++ ", only pending tasks can be cancelled"))
  if !(← Job.tasks (.markSkipped id (← Job.now))) then
    throw (.invalidInput ("task " ++ id ++ " is no longer pending"))

/-- Cancels those of a list of tasks that are pending; says how many it has cancelled. -/
def cancelAll (now : Instant) : List Task → Job Nat
  | [] => return 0
  | t :: ts => do
    let cancelled ← if t.isPending then Job.tasks (.markSkipped t.id now) else pure false
    let others ← cancelAll now ts
    return cancelled.toNat + others

/-- **Cancels the pending tasks of an event**; says how many it has cancelled. -/
def cancelEvent (eventId : String) : Job Nat := do
  let now ← Job.now
  cancelAll now (← Job.tasks (.listByEvent eventId))

/-- Makes one task after another. -/
def createAll (s : Scheduler) : List TaskDraft → Job (List Task)
  | [] => return []
  | draft :: drafts => do
    let task ← s.create draft
    let tasks ← s.createAll drafts
    return task :: tasks

/-- **Makes the tasks that are planned for an event.** -/
def scheduleEvent (s : Scheduler) (e : Event) : Job (List Task) := do
  if e.status.isOver then
    throw (.invalidInput
      ("event " ++ e.id ++ " is " ++ e.status.name ++ ", nothing to schedule"))
  let now ← Job.now
  let planned := (s.config.plan.actions e).filter (isStillPlanned now)
  s.createAll (planned.map (plannedDraft e))

end Gathering.Scheduler
