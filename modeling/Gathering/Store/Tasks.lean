import Gathering.Keyed
import Gathering.Task.Transition

/-!
# The store of tasks

Tasks by identifier. A transition of a task that is not there is an error; one
whose condition does not hold is refused, and the answer says so. A call that
fails or is refused leaves the store as it is.

Lists of tasks are in the order of time, and tasks of one instant in the order
of their identifiers, so that the answer depends on the tasks alone.
-/

namespace Gathering

/-- **Tasks by identifier.** -/
structure TaskStore where
  /-- The tasks under their identifiers. -/
  rows : Keyed Task

namespace TaskStore

/-- The store without tasks. -/
def empty : TaskStore := ⟨.empty⟩

instance : Inhabited TaskStore := ⟨empty⟩

/-- The task of an identifier. -/
def find? (s : TaskStore) (id : String) : Option Task :=
  s.rows.find? id

/-- Adds a task under an identifier that is new. -/
def insert (s : TaskStore) (t : Task) : Except Error TaskStore :=
  match s.find? t.id with
  | some _ => .error (.invalidInput ("task " ++ t.id ++ " already exists"))
  | none => .ok ⟨s.rows.insert t.id t⟩

/-- Tasks in the order of time and identifier. -/
def sorted (tasks : List Task) : List Task :=
  tasks.mergeSort fun a b => a.comesBefore b

/-- The tasks of an event. -/
def ofEvent (s : TaskStore) (eventId : String) : List Task :=
  sorted (s.rows.values.filter fun t => t.eventId = eventId)

/-- **The tasks that are due**, the earliest first, at most `limit` of them. -/
def due (s : TaskStore) (now : Instant) (limit : Nat) : List Task :=
  (sorted (s.rows.values.filter (·.isDue now))).take limit

/-- Applies a transition to a task: the changed task, or nothing if the transition is refused. -/
def transition (s : TaskStore) (id : String) (change : Task → Option Task) :
    Except Error (Option Task × TaskStore) :=
  match s.find? id with
  | none => .error (.notFound "task" id)
  | some t =>
    match change t with
    | none => .ok (none, s)
    | some t' => .ok (some t', ⟨s.rows.insert id t'⟩)

/-! ## Calls -/

/-- **A call of the store of tasks.** -/
inductive Call where
  /-- Adds a task. -/
  | insert (t : Task)
  /-- Asks for a task. -/
  | get (id : String)
  /-- Asks for the tasks of an event. -/
  | listByEvent (eventId : String)
  /-- Asks for tasks that are due. -/
  | listDue (now : Instant) (limit : Nat)
  /-- Claims a task until a deadline. -/
  | claim (id owner : String) (deadline now : Instant)
  /-- Extends a lease. -/
  | extendLease (id owner : String) (deadline : Instant)
  /-- Settles a task as processed. -/
  | markProcessed (id owner : String) (at_ : Instant)
  /-- Records a failed attempt. -/
  | incrementRetries (id owner error : String)
  /-- Settles a task as failed. -/
  | markFailed (id owner error : String) (at_ : Instant)
  /-- Cancels a task. -/
  | markSkipped (id : String) (at_ : Instant)

/-- What a call of the store of tasks answers. -/
abbrev Call.Answer : Call → Type
  | .insert _ => Unit
  | .get _ => Option Task
  | .listByEvent _ => List Task
  | .listDue _ _ => List Task
  | .claim _ _ _ _ => Option Task
  | .extendLease _ _ _ => Bool
  | .markProcessed _ _ _ => Bool
  | .incrementRetries _ _ _ => Option Nat
  | .markFailed _ _ _ _ => Bool
  | .markSkipped _ _ => Bool

/-- Whether a transition happened. -/
def happened (r : Option Task × TaskStore) : Bool × TaskStore := (r.1.isSome, r.2)

/-- **What a call does to the store**, at an instant of the store's own clock. -/
def perform (s : TaskStore) (now : Instant) : (call : Call) → Except Error (call.Answer × TaskStore)
  | .insert t => (s.insert t).map fun s' => ((), s')
  | .get id => .ok (s.find? id, s)
  | .listByEvent eventId => .ok (s.ofEvent eventId, s)
  | .listDue at_ limit => .ok (s.due at_ limit, s)
  | .claim id owner deadline at_ => s.transition id (·.claim? owner deadline at_)
  | .extendLease id owner deadline =>
    (s.transition id (·.extendLease? owner deadline)).map happened
  | .markProcessed id owner at_ => (s.transition id (·.process? owner at_)).map happened
  | .incrementRetries id owner error =>
    (s.transition id (·.failedAttempt? owner error now)).map fun r => (r.1.map (·.retries), r.2)
  | .markFailed id owner error at_ => (s.transition id (·.fail? owner error at_)).map happened
  | .markSkipped id at_ => (s.transition id (·.skip? at_)).map happened

end TaskStore

end Gathering
