import Gathering.Proofs.Scheduler.Standing
import Gathering.Proofs.Store.Tenure
import Gathering.Proofs.Time.Flow
import Gathering.Rehearsal.Play
import Mathlib.Data.List.Induction
import Mathlib.Logic.Function.Basic

/-!
# Crews

A **crew** is any number of sweepers, each with a scheduler of its own, that
share one store of tasks and one clock. Every sweeper runs one sweep after
another. What the crew does is a sequence of **happenings**, in any order that
the sweepers allow: a sweeper takes one step (a `Deed`), a user calls the store,
or time passes.

A rehearsal is one such sequence, with the sweepers in a fixed line. Here the
order is free, sends take as long as they like up to their limit, and whatever
is not the store of tasks or the clock answers what it likes. The store itself
may also fail a call without having done anything.

Time may be free as well. Where it matters that it is not, a crew is
**punctual**: whatever has nothing to wait for is done before time passes.

## What is free and what is not

A step of a sweeper is a step of the program of its sweep, and nothing is left out
of that program: what it asks for next, and what it makes of an answer, is what the
running sweep would. What is free is when the step comes, and what is answered. So a
statement about all runs of a crew is a statement about every way in which the steps
of its sweepers can fall between each other.

The store of tasks is the one thing that all of them see. It carries out a call at
one moment, between two steps of anybody, as a store behind one lock does. A call
that has failed has done nothing: of a call that was carried out and whose answer
was lost nothing is said.

The wall clock never goes back here. It is the time at which the crew was set up and
what has passed since, the same for everybody.
-/

namespace Gathering

/-- What a sweeper does: it waits for its next sweep, it is about to go on with one, or it waits
for the sends of a batch. -/
inductive Hand where
  /-- It waits for its next sweep, for as long as it likes. -/
  | idle
  /-- It is about to go on with a sweep; this is what is left of it. -/
  | working (rest : Work (Except Error SweepReport))
  /-- It waits for the sends of a batch, and then goes on with what is left of its sweep. -/
  | sending (batch : Batch) (fan : Rehearsal.Sending)
      (next : List (Participant × Except Error Unit) → Work (Except Error SweepReport))

/-- **A step of a sweeper.** -/
inductive Deed where
  /-- It begins a sweep. -/
  | begins
  /-- Its sweep has ended. -/
  | ends
  /-- It asks for something and is answered at once. -/
  | asks (r : Request) (answer : r.Answer)
  /-- It has a batch to send. -/
  | launches (batch : Batch)
  /-- It starts to send to somebody. -/
  | starts (target : Participant)
  /-- What it has sent to somebody has ended, well or not. -/
  | lands (target : Participant)
  /-- All its sends have ended, and it goes on. -/
  | finishes
  /-- It was called off, gives up its sends, and goes on. -/
  | abandons

/-- **What a step makes of a sweeper.** A send may take any time, and may end in any way. -/
inductive Hand.Step (s : Scheduler) (clock : Nat) : Hand → Deed → Hand → Prop
  /-- A sweep may begin at any time, over any number of tasks. -/
  | begins (limit : Nat) : Step s clock .idle .begins (.working (s.sweep limit).run)
  /-- The program of the sweep has come to its end. -/
  | ends (report : Except Error SweepReport) : Step s clock (.working (.done report)) .ends .idle
  /-- The program asks for something. The step takes every answer; which of them are possible is
  up to the crew (`Crew.Answers`). -/
  | asks {r : Request} {next : r.Answer → Work (Except Error SweepReport)} (answer : r.Answer) :
      Step s clock (.working (.ask (.request r) next)) (.asks r answer) (.working (next answer))
  /-- The program asks for a batch to be sent, of which nothing is under way yet. -/
  | launches {batch : Batch} {next : _ → Work (Except Error SweepReport)} :
      Step s clock (.working (.ask (.fanOut batch) next)) (.launches batch)
        (.sending batch (Rehearsal.sendingOf batch) next)
  /-- The next send is started, if there is one and not too many are under way. It may take any
  time, but is cut off at the limit. -/
  | starts {batch : Batch} {fan : Rehearsal.Sending} {next : _ → Work (Except Error SweepReport)}
      {target : Participant} {waiting : List Participant} (duration : Nat)
      (h : fan.startable? = some (target, waiting)) :
      Step s clock (.sending batch fan next) (.starts target)
        (.sending batch (fan.start (fan.flight target clock duration) waiting) next)
  /-- A send that is under way ends, in any way. That it does not end later than it may is up to
  the pace of the crew. -/
  | lands {batch : Batch} {fan : Rehearsal.Sending} {next : _ → Work (Except Error SweepReport)}
      (before : List (Flight Participant)) (f : Flight Participant)
      (after : List (Flight Participant)) (result : Except Error Unit)
      (h : fan.flying = before ++ f :: after) :
      Step s clock (.sending batch fan next) (.lands f.target)
        (.sending batch (fan.land f (before ++ after) result) next)
  /-- When all sends have ended, the program is told of each how it ended. -/
  | finishes {batch : Batch} {fan : Rehearsal.Sending} {next : _ → Work (Except Error SweepReport)}
      (h : fan.isOver = true) :
      Step s clock (.sending batch fan next) .finishes (.working (next fan.results))
  /-- The sends can be given up at any time; those that have not ended then count as called off. -/
  | abandons {batch : Batch} {fan : Rehearsal.Sending}
      {next : _ → Work (Except Error SweepReport)} :
      Step s clock (.sending batch fan next) .abandons
        (.working (next (fan.abandon clock (.error .cancelled)).results))

/-- **A crew of sweepers**: the time, the tasks, and what each sweeper does. -/
structure Crew (ι : Type) where
  /-- How many nanoseconds have passed. -/
  clock : Nat
  /-- The tasks that all of them share. -/
  tasks : TaskStore
  /-- What each sweeper does. -/
  hands : ι → Hand

/-- What stays the same: what the wall clock was set to, and the schedulers of the sweepers.

Nothing is said of the names of the schedulers. Where two sweepers must not share one, this is an
assumption of the statement. -/
structure Crew.Setting (ι : Type) where
  /-- What the wall clock showed at first. -/
  wall : Instant
  /-- The scheduler of each sweeper, with its name and its settings. -/
  scheduler : ι → Scheduler

/-- **What happens**: a sweeper takes a step, a user calls the store of tasks, or time passes. -/
inductive Happening (ι : Type) where
  /-- A sweeper takes a step. -/
  | by_ (i : ι) (d : Deed)
  /-- A user calls the store of tasks and is answered. -/
  | called (call : TaskStore.Call) (answer : Except Error call.Answer)
  /-- So many nanoseconds pass. -/
  | passed (nanos : Nat)

/-- Whether a request is neither about the time nor to the store of tasks. -/
def Request.isElsewhere : Request → Bool
  | .now | .tasks _ => false
  | _ => true

/-- Whether a call is one that users make: they add tasks, look at them, and cancel them. -/
def TaskStore.Call.isUsers : TaskStore.Call → Bool
  | .insert _ | .get _ | .listByEvent _ | .markSkipped _ _ => true
  | _ => false

namespace Crew

variable {ι : Type} [DecidableEq ι]

/-- At first nobody sweeps, and there are no tasks. -/
def start : Crew ι where
  clock := 0
  tasks := .empty
  hands _ := .idle

/-- **How a request is answered**, and what becomes of the tasks. A call of their store may fail
without having done anything. -/
inductive Answers (tasks : TaskStore) (now : Instant) : (r : Request) → r.Answer → TaskStore → Prop
  /-- The time is told as the one wall clock shows it. -/
  | now : Answers tasks now .now now tasks
  /-- The store of tasks carries out a call, at the time of the wall clock. -/
  | tasks (call : TaskStore.Call) :
      Answers tasks now (.tasks call) (tasks.respond now call).1 (tasks.respond now call).2
  /-- The store of tasks fails a call with any error, and nothing has happened. -/
  | failure (call : TaskStore.Call) (e : Error) : Answers tasks now (.tasks call) (.error e) tasks
  /-- Whatever else is asked for is answered in any way, and the tasks stay. -/
  | elsewhere {r : Request} (answer : r.Answer) (h : r.isElsewhere = true) :
      Answers tasks now r answer tasks

/-- What becomes of the tasks when a sweeper takes a step. -/
inductive Leaves (tasks : TaskStore) (now : Instant) : Deed → TaskStore → Prop
  /-- The tasks are what an answer leaves, if the sweeper has asked for something. -/
  | answer {r : Request} {answer : r.Answer} {tasks' : TaskStore}
      (h : Answers tasks now r answer tasks') : Leaves tasks now (.asks r answer) tasks'
  /-- Every other step leaves the tasks as they are. -/
  | kept {d : Deed} (h : ∀ r answer, d ≠ .asks r answer) : Leaves tasks now d tasks

/-- **What happens to a crew**, if time passes at the pace that is given.

A pace says of a crew and a time whether so much of it may pass there. The pace that allows
everything is that of sweepers which may be held up at any point and for as long as one likes. -/
inductive Step (S : Setting ι) (pace : Crew ι → Nat → Prop) : Crew ι → Happening ι → Crew ι → Prop
  /-- A sweeper takes a step, and the others stay as they are. -/
  | by_ {c : Crew ι} {d : Deed} {hand : Hand} {tasks : TaskStore} (i : ι)
      (h : Hand.Step (S.scheduler i) c.clock (c.hands i) d hand)
      (hleaves : Leaves c.tasks (S.wall.elapsed c.clock) d tasks) :
      Step S pace c (.by_ i d) ⟨c.clock, tasks, Function.update c.hands i hand⟩
  /-- A user makes one of the calls that are for users, and the store carries it out. -/
  | called {c : Crew ι} (call : TaskStore.Call) (h : call.isUsers = true) :
      Step S pace c (.called call (c.tasks.respond (S.wall.elapsed c.clock) call).1)
        ⟨c.clock, (c.tasks.respond (S.wall.elapsed c.clock) call).2, c.hands⟩
  /-- Time passes, if the pace allows it. -/
  | passed {c : Crew ι} (nanos : Nat) (h : pace c nanos) :
      Step S pace c (.passed nanos) ⟨c.clock + nanos, c.tasks, c.hands⟩

/-- **A run of a crew**, with what happened in it.

It grows at its end, since what is known of a crew is known of where it has come to: the
statements about runs are shown by one step after the other, and a run is only cut (`Run.split`)
where something is said of what came in between. -/
inductive Run (S : Setting ι) (pace : Crew ι → Nat → Prop) :
    Crew ι → List (Happening ι) → Crew ι → Prop
  /-- Nothing has happened yet. -/
  | nil (c : Crew ι) : Run S pace c [] c
  /-- Something more happens at the end. -/
  | snoc {c₁ c₂ c₃ : Crew ι} {es : List (Happening ι)} {e : Happening ι}
      (run : Run S pace c₁ es c₂) (step : Step S pace c₂ e c₃) : Run S pace c₁ (es ++ [e]) c₃

variable {S : Setting ι} {pace : Crew ι → Nat → Prop} {c c' c₁ c₂ c₃ : Crew ι}
  {e : Happening ι} {es es' : List (Happening ι)}

/-! ## Runs

Runs are put together and cut like lists. They begin anywhere, not only at `start`, so that a
stretch of a run is a run. -/

theorem Run.single (h : Step S pace c e c') : Run S pace c [e] c' :=
  .snoc (.nil c) h

theorem Run.append (h : Run S pace c₁ es c₂) (h' : Run S pace c₂ es' c₃) :
    Run S pace c₁ (es ++ es') c₃ := by
  induction h' with
  | nil =>
    rw [List.append_nil]
    exact h
  | snoc _ step ih =>
    rw [← List.append_assoc]
    exact .snoc ih step

theorem Run.last (h : Run S pace c₁ (es ++ [e]) c₃) :
    ∃ c₂, Run S pace c₁ es c₂ ∧ Step S pace c₂ e c₃ := by
  generalize hall : es ++ [e] = all at h
  cases h with
  | nil => exact absurd hall (List.append_ne_nil_of_right_ne_nil es (List.cons_ne_nil e []))
  | snoc run step =>
    obtain ⟨rfl, he⟩ := List.append_inj' hall rfl
    cases he
    exact ⟨_, run, step⟩

theorem Run.split (h : Run S pace c₁ (es ++ es') c₃) :
    ∃ c₂, Run S pace c₁ es c₂ ∧ Run S pace c₂ es' c₃ := by
  induction es' using List.reverseRecOn generalizing c₃ with
  | nil =>
    rw [List.append_nil] at h
    exact ⟨c₃, h, .nil c₃⟩
  | append_singleton es' e ih =>
    rw [← List.append_assoc] at h
    obtain ⟨c₂, run, step⟩ := h.last
    obtain ⟨c, h₁, h₂⟩ := ih run
    exact ⟨c, h₁, .snoc h₂ step⟩

end Crew

/-! ## The store in a run

Of what happens only the calls of the store bear on the tasks. Each of them is an entry of a
history, with the time of the wall clock, and moves every task as such an entry does
(`Step.moves`); that a call can fail without having done anything is one of these moves. So what
was shown of histories of the store holds of crews, and only two things are added here: who makes
the calls that give a lease away, and who those that take it back. -/

/-- The call of the store of tasks that happened, if one did. -/
def Happening.entry? {ι : Type} (now : Instant) : Happening ι → Option TaskStore.Entry
  | .by_ _ (.asks (.tasks call) answer) => some ⟨now, call, answer⟩
  | .called call answer => some ⟨now, call, answer⟩
  | _ => none

/-- A call of the store is made by a sweeper or by a user. -/
theorem Happening.cases_of_entry? {ι : Type} {e : Happening ι} {now at_ : Instant}
    {call : TaskStore.Call} {answer : Except Error call.Answer}
    (h : e.entry? now = some ⟨at_, call, answer⟩) :
    (∃ i, e = .by_ i (.asks (.tasks call) answer)) ∨ e = .called call answer := by
  unfold entry? at h
  split at h
  · cases h
    exact .inl ⟨_, rfl⟩
  · cases h
    exact .inr rfl
  · cases h

namespace Crew

variable {ι : Type} [DecidableEq ι] {S : Setting ι} {pace : Crew ι → Nat → Prop} {c c' : Crew ι}
  {e : Happening ι}

/-- **What happens moves the tasks as its entry says**; without an entry they stay.

This is the only lemma that looks at how the store answers. What follows of a task is then a case
analysis over the ways in which an entry moves it (`TaskStore.Entry.Moves`). -/
theorem Step.moves (h : Step S pace c e c') (x : String) :
    (∃ entry, e.entry? (S.wall.elapsed c.clock) = some entry ∧
      entry.Moves x (c.tasks.find? x) (c'.tasks.find? x)) ∨
    (e.entry? (S.wall.elapsed c.clock) = none ∧ c'.tasks = c.tasks) := by
  cases h with
  | @by_ d _ _ i _ hleaves =>
    cases hleaves with
    | @answer r answer _ h =>
      cases h with
      | now => exact .inr ⟨rfl, rfl⟩
      | tasks call => exact .inl ⟨_, rfl, c.tasks.respond_moves _ call x⟩
      | failure call err =>
        exact .inl ⟨_, rfl, .kept (TaskStore.Entry.changes_of_error x _ call err)⟩
      | elsewhere _ h =>
        cases r with
        | now => cases h
        | tasks _ => cases h
        | _ => exact .inr ⟨rfl, rfl⟩
    | kept h =>
      refine .inr ⟨?_, rfl⟩
      cases d with
      | asks r answer => exact absurd rfl (h r answer)
      | _ => rfl
  | called call _ => exact .inl ⟨_, rfl, c.tasks.respond_moves _ call x⟩
  | passed _ _ => exact .inr ⟨rfl, rfl⟩

theorem Step.isUsers {call : TaskStore.Call} {answer : Except Error call.Answer}
    (h : Step S pace c (.called call answer) c') : call.isUsers = true := by
  cases h with
  | called _ h => exact h

/-- **Only a sweeper claims a task.** -/
theorem Step.by_of_claims (h : Step S pace c e c') {x : String} {now : Instant}
    {entry : TaskStore.Entry} (hentry : e.entry? now = some entry)
    (hclaims : entry.claims x = true) :
    ∃ i owner deadline at_ t,
      e = .by_ i (.asks (.tasks (.claim x owner deadline at_)) (.ok (some t))) := by
  unfold TaskStore.Entry.claims at hclaims
  split at hclaims
  · obtain rfl := of_decide_eq_true hclaims
    rcases Happening.cases_of_entry? hentry with ⟨i, rfl⟩ | rfl
    · exact ⟨i, _, _, _, _, rfl⟩
    · cases h.isUsers
  · cases hclaims

/-- **Only a sweeper releases a task.** -/
theorem Step.by_of_releases (h : Step S pace c e c') {x : String} {now : Instant}
    {entry : TaskStore.Entry} (hentry : e.entry? now = some entry)
    (hreleases : entry.releases x = true) :
    ∃ i owner error n,
      e = .by_ i (.asks (.tasks (.incrementRetries x owner error)) (.ok (some n))) := by
  unfold TaskStore.Entry.releases at hreleases
  split at hreleases
  · obtain rfl := of_decide_eq_true hreleases
    rcases Happening.cases_of_entry? hentry with ⟨i, rfl⟩ | rfl
    · exact ⟨i, _, _, _, rfl⟩
    · cases h.isUsers
  · cases hreleases

end Crew

end Gathering
