import Gathering.Request

/-!
# Outreach of a task

An outreach goes to every participant of the event who is in its audience, so
many at a time. A send that fails does not keep the others from being made; the
outcome is decided when all have ended.

Before the first send the lease is extended to the latest time at which the last
send can end, and by the length of a claim beyond. A lease that was lost stops
the outreach before anything is sent.
-/

namespace Gathering.Scheduler

/-- How many rounds of sends it takes at most, as a number of 32 bits. -/
def rounds (targets width : Nat) : Nat :=
  min ((targets + width - 1) / width) ((1 <<< 32) - 1)

/-- How long a lease has to last for so many sends, so many at a time. -/
def leaseBudget (c : SchedulerConfig) (targets width : Nat) : Span :=
  c.sendTimeout.times (rounds targets width) + c.claimLease

/-- Extends the lease of a task over so many sends. -/
def renewLease (s : Scheduler) (task : Task) (targets width : Nat) : Job Unit := do
  let deadline := (← Job.now).add (leaseBudget s.config targets width)
  if !(← Job.tasks (.extendLease task.id s.id deadline)) then
    throw (.store ("lease on task " ++ task.id ++ " was lost"))

/-- The errors among the results of sends, in their order. -/
def sendErrors (results : List (Participant × Except Error Unit)) : List Error :=
  results.filterMap fun r =>
    match r.2 with
    | .ok () => none
    | .error e => some e

/-- **What comes of an outreach**: it fails if a send has failed, with the error of the send that
ended first among those. -/
def outcomeOf (kind : Outreach) (targets : Nat)
    (results : List (Participant × Except Error Unit)) : Except Error Unit :=
  match sendErrors results with
  | [] => .ok ()
  | e :: es =>
    .error (.gateway
      (Decimal.digitText (es.length + 1) ++ " of " ++ Decimal.digitText targets ++ " " ++
        kind.name ++ " sends failed, first error: " ++ e.message))

/-- **Sends an outreach to its audience among the participants of the task's event.** -/
def reachOut (s : Scheduler) (task : Task) (kind : Outreach) : Job Unit := do
  let event ← Job.found "event" task.eventId (← Job.roster (.getEvent task.eventId))
  let targets := kind.targets (← Job.roster (.listParticipants task.eventId))
  if targets.isEmpty then return
  let width := max s.config.fanoutConcurrency 1
  s.renewLease task targets.length width
  let batch : Batch := { kind, event, targets, width, limit := s.config.sendTimeout }
  let results ← ExceptT.lift (Program.call (Effect.fanOut batch))
  Job.checked (outcomeOf kind targets.length results)

end Gathering.Scheduler
