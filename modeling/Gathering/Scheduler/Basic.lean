import Gathering.Config.Basic
import Gathering.Event
import Gathering.Task.Draft

/-!
# Schedulers and their plans

A scheduler makes the tasks of events and executes them when they are due. Many
schedulers may share one store; each has a name of its own, under which it
claims tasks.

The **plan** of an event follows from its times: an outreach is due some time
before the start, and the closure at the end.
-/

namespace Gathering

/-- **What a scheduler is**: its name as the holder of leases, and its settings. -/
structure Scheduler where
  /-- The name under which it claims tasks. -/
  id : String
  /-- Its settings. -/
  config : SchedulerConfig
  deriving DecidableEq

/-- The end of an event, or when it is taken to end. -/
def ActionPlan.endOf (plan : ActionPlan) (e : Event) : Instant :=
  e.endsAt.getD (e.startsAt.add plan.defaultEventLength)

/-- **What is planned for an event, and when**: the outreach that is enabled, and the closure. -/
def ActionPlan.actions (plan : ActionPlan) (e : Event) : List (Action × Instant) :=
  let outreach : List (Action × Option Span) :=
    [ (.confirmation, plan.confirmationLead), (.reminder, plan.reminderLead),
      (.location, plan.locationLead) ]
  let closure := if plan.closure then [(Action.closure, plan.endOf e)] else []
  (outreach.filterMap fun (action, lead) => lead.map fun d => (action, e.startsAt.sub d)) ++ closure

/-- Whether a planned action is still worth a task: an outreach whose time has passed is not, and
the closure always is. -/
def isStillPlanned (now : Instant) (planned : Action × Instant) : Bool :=
  planned.1 = .closure || now ≤ planned.2

/-- The draft of a planned task. -/
def plannedDraft (e : Event) (planned : Action × Instant) : TaskDraft where
  eventId := e.id
  action := some planned.1.name
  scheduledAt := some planned.2

end Gathering
