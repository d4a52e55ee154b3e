import Gathering.Task.Action

/-!
# Tasks

A task is one action of an event at a time. It is **pending** until it is
processed, fails or is skipped, and after that it never changes again. A sweeper
that wants to execute a pending task claims it until some instant; while that
claim – the task's *lease* – is in force, no other sweeper can claim the task.

A task that fails for a transient reason stays pending, up to a number of
attempts.
-/

namespace Gathering

/-- Where a task stands. -/
inductive TaskStatus where
  /-- Waiting to be executed. -/
  | pending
  /-- Executed. -/
  | processed
  /-- Given up. -/
  | failed
  /-- Cancelled before it was executed. -/
  | skipped
  deriving DecidableEq, Repr

namespace TaskStatus

/-- The name of a status. -/
def name : TaskStatus → String
  | pending => "pending"
  | processed => "processed"
  | failed => "failed"
  | skipped => "skipped"

/-- The status of a name. -/
def ofName? : String → Option TaskStatus
  | "pending" => some pending
  | "processed" => some processed
  | "failed" => some failed
  | "skipped" => some skipped
  | _ => none

/-- Whether a task with this status is never executed again. -/
def isTerminal (s : TaskStatus) : Bool := s != pending

/-- The record of a status. -/
def toJson (s : TaskStatus) : Json.Value := .text s.name

/-- The status that a record holds. -/
def ofJson? (t : Json.Tree) : Option TaskStatus := t.choice?.bind ofName?

end TaskStatus

/-- **One action of an event at a time.** -/
structure Task where
  /-- The identifier. -/
  id : String
  /-- The event. -/
  eventId : String
  /-- The occurrence of an event that repeats, if the task belongs to one. -/
  instanceId : Option String
  /-- What the task does. -/
  action : Action
  /-- Where the task stands. -/
  status : TaskStatus
  /-- When the task becomes due. -/
  scheduledAt : Instant
  /-- When the task reached its final status. -/
  processedAt : Option Instant
  /-- How many attempts have failed. This is a count of 32 bits. How much room it needs depends on
  how many attempts there are and how many sweepers share the store (`Crew.retry_budget`). -/
  retries : Nat
  /-- How many attempts there are, a count of 32 bits. -/
  maxRetries : Nat
  /-- What the last failed attempt reported. -/
  errorMessage : Option String
  /-- Whatever the maker of the task has attached to it. -/
  metadata : Json.Value
  /-- The sweeper that holds the lease. -/
  claimedBy : Option String
  /-- Until when the lease is in force. -/
  claimedUntil : Option Instant
  /-- When the task was made. -/
  createdAt : Instant
  /-- When the task was last changed. -/
  updatedAt : Instant

namespace Task

instance : Inhabited Task :=
  ⟨⟨"", "", none, .closure, .pending, default, none, 0, 1, none, .null, none, none, default,
    default⟩⟩

/-- Whether the task waits to be executed. -/
def isPending (t : Task) : Bool := t.status == .pending

/-- Whether the task is due at an instant. -/
def isDue (t : Task) (now : Instant) : Bool :=
  t.isPending && t.scheduledAt ≤ now

/-- Whether a lease is in force at an instant; it ends at its last instant. -/
def isLeased (t : Task) (now : Instant) : Bool :=
  match t.claimedUntil with
  | some deadline => now < deadline
  | none => false

/-- Whether a sweeper may claim the task at an instant. -/
def isClaimable (t : Task) (now : Instant) : Bool :=
  t.isPending && !t.isLeased now

/-- Whether one more failed attempt is the last one. -/
def isLastAttempt (t : Task) : Bool :=
  t.maxRetries ≤ t.retries + 1

/-- Whether a task comes before another: the earlier one, and of two at the same instant the one
with the smaller identifier. -/
def comesBefore (s t : Task) : Bool :=
  s.scheduledAt < t.scheduledAt || (s.scheduledAt = t.scheduledAt && s.id ≤ t.id)

/-- One past the greatest number of attempts. -/
def retryBound : Nat := 1 <<< 32

/-- The names of the fields of a task's record. -/
def fieldNames : List String :=
  ["id", "event_id", "instance_id", "action", "status", "scheduled_at", "processed_at", "retries",
    "max_retries", "error_message", "metadata", "claimed_by", "claimed_until", "created_at",
    "updated_at"]

/-- The record of a task. -/
def toJson (t : Task) : Json.Value :=
  .object
    [ ("id", .text t.id), ("event_id", .text t.eventId),
      ("instance_id", .ofOption .text t.instanceId), ("action", t.action.toJson),
      ("status", t.status.toJson), ("scheduled_at", .ofInstant t.scheduledAt),
      ("processed_at", .ofOption .ofInstant t.processedAt), ("retries", .ofNat t.retries),
      ("max_retries", .ofNat t.maxRetries), ("error_message", .ofOption .text t.errorMessage),
      ("metadata", t.metadata), ("claimed_by", .ofOption .text t.claimedBy),
      ("claimed_until", .ofOption .ofInstant t.claimedUntil),
      ("created_at", .ofInstant t.createdAt), ("updated_at", .ofInstant t.updatedAt) ]

/-- The task that a record holds. -/
def ofJson? (t : Json.Tree) : Option Task := do
  let fields ← t.fields? fieldNames
  return { id := ← fields.required "id" Json.Tree.text?
           eventId := ← fields.required "event_id" Json.Tree.text?
           instanceId := ← fields.optional "instance_id" Json.Tree.text?
           action := ← fields.required "action" Action.ofJson?
           status := ← fields.required "status" TaskStatus.ofJson?
           scheduledAt := ← fields.required "scheduled_at" Json.Tree.instant?
           processedAt := ← fields.optional "processed_at" Json.Tree.instant?
           retries := ← fields.required "retries" (Json.Tree.nat? retryBound)
           maxRetries := ← fields.required "max_retries" (Json.Tree.nat? retryBound)
           errorMessage := ← fields.optional "error_message" Json.Tree.text?
           metadata := ← fields.required "metadata" (Json.Value.ofTree? (Json.depthLimit - 1))
           claimedBy := ← fields.optional "claimed_by" Json.Tree.text?
           claimedUntil := ← fields.optional "claimed_until" Json.Tree.instant?
           createdAt := ← fields.required "created_at" Json.Tree.instant?
           updatedAt := ← fields.required "updated_at" Json.Tree.instant? }

end Task

end Gathering
