import Gathering.Task.Basic

/-!
# Drafts of tasks

What a caller says about a task to be made. A draft becomes a task if it names
an event, an action and a time and allows at least one attempt; the first of
these that fails is reported.
-/

namespace Gathering

/-- **What a caller says about a new task.** -/
structure TaskDraft where
  /-- The event. -/
  eventId : String
  /-- The occurrence of an event that repeats. -/
  instanceId : Option String := none
  /-- The name of the action. -/
  action : Option String := none
  /-- When the task becomes due. -/
  scheduledAt : Option Instant := none
  /-- How many attempts there are; a default holds if nothing is said. -/
  maxRetries : Option Nat := none
  /-- Whatever the caller attaches to the task. -/
  metadata : Option Json.Value := none

namespace TaskDraft

/-- A value that must be there. -/
def need {α : Type} (what : String) : Option α → Except Error α
  | some a => .ok a
  | none => .error (.invalidInput (what ++ " is required"))

/-- The parts of a task that a sound draft determines. -/
structure Sound where
  /-- What the task does. -/
  action : Action
  /-- When it becomes due. -/
  scheduledAt : Instant
  /-- How many attempts there are, at least one. -/
  maxRetries : Nat

/-- **Checks a draft**: event, action, time and number of attempts, in this order. -/
def check (d : TaskDraft) (defaultMaxRetries : Nat) : Except Error Sound := do
  if Text.isBlank d.eventId then throw (.invalidInput "event_id is required")
  let action ← Action.parse (← need "action" d.action)
  let scheduledAt ← need "scheduled_at" d.scheduledAt
  let maxRetries := d.maxRetries.getD defaultMaxRetries
  if maxRetries = 0 then throw (.invalidInput "max_retries must be at least 1")
  return ⟨action, scheduledAt, maxRetries⟩

/-- The pending task of a draft that was found sound. -/
def toTask (d : TaskDraft) (sound : Sound) (id : String) (now : Instant) : Task where
  id := id
  eventId := d.eventId
  instanceId := d.instanceId
  action := sound.action
  status := .pending
  scheduledAt := sound.scheduledAt
  processedAt := none
  retries := 0
  maxRetries := sound.maxRetries
  errorMessage := none
  metadata := d.metadata.getD .null
  claimedBy := none
  claimedUntil := none
  createdAt := now
  updatedAt := now

/-- **The task of a draft**, under a given identifier. -/
def make (d : TaskDraft) (defaultMaxRetries : Nat) (id : String) (now : Instant) :
    Except Error Task := do
  let sound ← d.check defaultMaxRetries
  return d.toTask sound id now

/-- The names of the fields of a draft's record. -/
def fieldNames : List String :=
  ["event_id", "instance_id", "action", "scheduled_at", "max_retries", "metadata"]

/-- The record of a draft. -/
def toJson (d : TaskDraft) : Json.Value :=
  .object
    [ ("event_id", .text d.eventId), ("instance_id", .ofOption .text d.instanceId),
      ("action", .ofOption .text d.action), ("scheduled_at", .ofOption .ofInstant d.scheduledAt),
      ("max_retries", .ofOption .ofNat d.maxRetries), ("metadata", .ofOption id d.metadata) ]

/-- The draft that a record holds. -/
def ofJson? (t : Json.Tree) : Option TaskDraft := do
  let fields ← t.fields? fieldNames
  return { eventId := ← fields.required "event_id" Json.Tree.text?
           instanceId := ← fields.optional "instance_id" Json.Tree.text?
           action := ← fields.optional "action" Json.Tree.text?
           scheduledAt := ← fields.optional "scheduled_at" Json.Tree.instant?
           maxRetries := ← fields.optional "max_retries" (Json.Tree.nat? Task.retryBound)
           metadata := ← fields.optional "metadata" (Json.Value.ofTree? (Json.depthLimit - 1)) }

end TaskDraft

end Gathering
