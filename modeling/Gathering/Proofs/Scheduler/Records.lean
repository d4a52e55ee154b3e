import Gathering.Proofs.Program.Pool
import Gathering.Proofs.Scheduler.Making
import Gathering.Proofs.Scheduler.Single
import Gathering.Proofs.Task.Action
import Gathering.Proofs.Task.WellFormed
import Gathering.Scheduler.Sweep

/-!
# The records that schedulers leave

Any number of schedulers make tasks, cancel them and sweep, all at the same time,
and any of their calls may fail. No scheduler knows what the others do, and each
writes only a part of a record at a time. Still every record of the store is well
formed at every moment (`Scheduler.wellFormed_of_steps`): what schedulers add was
made from a draft, they give up a task with an error only
(`Scheduler.Calls.asks`), and from there the transitions of the tasks do the rest.
-/

namespace Gathering

/-- **An orderly effect**: what is added to the store of tasks was made from a draft, and what is
given up is given up with an error. -/
def Effect.IsOrderly : Effect → Prop
  | .request (.tasks (.insert t)) => t.IsMade
  | .request (.tasks (.markFailed _ _ error _)) => error ≠ ""
  | _ => True

/-- The text of an error is not empty. -/
theorem Error.message_ne_empty (e : Error) : e.message ≠ "" := by
  intro hempty
  have hlist := congrArg String.toList hempty
  unfold message at hlist
  cases e <;> simp at hlist

namespace Scheduler

/-! ## What schedulers ask for

Every program of a scheduler is gone through, and each asks for orderly effects only. Two of these
lemmas have something to show: making a task, which adds what a sound draft has become, and
settling one, which gives it up with the text of an error. -/

theorem create_asks (s : Scheduler) (draft : TaskDraft) :
    (s.create draft).Asks Effect.IsOrderly := by
  unfold create
  refine .lift trivial fun now => ?_
  refine .checked (fun sound hcheck => ?_) fun _ _ => trivial
  refine .lift (e := .request .freshId) trivial fun id => ?_
  exact .tasks (TaskDraft.isMade_toTask hcheck id now) (fun _ => trivial) fun _ => trivial

theorem createAll_asks (s : Scheduler) (drafts : List TaskDraft) :
    (s.createAll drafts).Asks Effect.IsOrderly := by
  induction drafts with
  | nil => trivial
  | cons draft drafts ih =>
    exact .bind (s.create_asks draft) fun _ _ _ => .bind ih fun _ _ _ => trivial

theorem scheduleEvent_asks (s : Scheduler) (e : Event) :
    (s.scheduleEvent e).Asks Effect.IsOrderly := by
  unfold scheduleEvent
  cases e.status.isOver with
  | true => trivial
  | false => exact .lift trivial fun now => s.createAll_asks _

theorem getById_asks (id : String) : (getById id).Asks Effect.IsOrderly := by
  unfold getById
  refine .tasks trivial (fun task => ?_) fun _ => trivial
  cases task <;> trivial

theorem cancel_asks (id : String) : (cancel id).Asks Effect.IsOrderly := by
  unfold cancel
  refine .bind (getById_asks id) fun task _ _ => ?_
  split
  · trivial
  · refine .lift trivial fun now => .tasks trivial (fun skipped => ?_) fun _ => trivial
    cases skipped <;> trivial

theorem cancelAll_asks (now : Instant) (tasks : List Task) :
    (cancelAll now tasks).Asks Effect.IsOrderly := by
  induction tasks with
  | nil => trivial
  | cons t tasks ih =>
    have hothers (cancelled : Bool) : Job.Asks Effect.IsOrderly (do
        let others ← cancelAll now tasks
        return cancelled.toNat + others) :=
      .bind ih fun _ _ _ => trivial
    unfold cancelAll
    cases t.isPending with
    | true => exact .tasks trivial hothers fun _ => trivial
    | false => exact hothers false

theorem cancelEvent_asks (eventId : String) : (cancelEvent eventId).Asks Effect.IsOrderly := by
  unfold cancelEvent
  refine .lift trivial fun now => ?_
  exact .tasks trivial (fun tasks => cancelAll_asks now tasks) fun _ => trivial

theorem renewLease_asks (s : Scheduler) (t : Task) (targets width : Nat) :
    (s.renewLease t targets width).Asks Effect.IsOrderly := by
  unfold renewLease
  refine .lift trivial fun now => .tasks trivial (fun granted => ?_) fun _ => trivial
  cases granted <;> trivial

theorem reachOut_asks (s : Scheduler) (t : Task) (kind : Outreach) :
    (s.reachOut t kind).Asks Effect.IsOrderly := by
  unfold reachOut
  refine .roster trivial (fun event => ?_) fun _ => trivial
  refine .found (fun event _ => ?_) fun _ => trivial
  refine .roster trivial (fun participants => ?_) fun _ => trivial
  dsimp only
  split
  · trivial
  · refine .bind (s.renewLease_asks t _ _) fun _ _ _ => ?_
    refine .lift trivial fun results => ?_
    cases outcomeOf kind (kind.targets participants).length results <;> trivial

theorem execute_asks (s : Scheduler) (t : Task) : (s.execute t).Asks Effect.IsOrderly := by
  unfold execute
  cases t.action with
  | confirmation => exact s.reachOut_asks t .confirmation
  | reminder => exact s.reachOut_asks t .reminder
  | location => exact s.reachOut_asks t .location
  | closure => exact Work.Obeys.ask trivial fun answer => by cases answer <;> trivial
  | unknown _ => trivial

/-- **Settling a task is orderly**: it is given up with the text of an error. -/
theorem settle_asks (s : Scheduler) (t : Task) (outcome : Except Error Unit) :
    (s.settle t outcome).Asks Effect.IsOrderly := by
  unfold settle
  refine .lift trivial fun now => ?_
  cases outcome with
  | ok _ => exact .tasks trivial (fun _ => trivial) fun _ => trivial
  | error e =>
    dsimp only
    split
    · exact .tasks e.message_ne_empty (fun _ => trivial) fun _ => trivial
    · exact .tasks trivial (fun _ => trivial) fun _ => trivial

theorem sweepTask_asks (s : Scheduler) (report : SweepReport) (t : Task) :
    (s.sweepTask report t).Asks Effect.IsOrderly := by
  unfold sweepTask
  refine .call trivial fun now => .call trivial fun claimed => ?_
  match claimed with
  | .error _ => trivial
  | .ok none => trivial
  | .ok (some claimed) =>
    refine .bind (s.execute_asks claimed).run fun outcome _ _ => ?_
    refine .bind (s.settle_asks claimed outcome).run fun settled _ _ => ?_
    cases settled <;> trivial

theorem sweepTasks_asks (s : Scheduler) (report : SweepReport) (tasks : List Task) :
    (s.sweepTasks report tasks).Asks Effect.IsOrderly := by
  induction tasks generalizing report with
  | nil => trivial
  | cons t tasks ih =>
    refine .call trivial fun cancelled => ?_
    cases cancelled with
    | true => trivial
    | false => exact .bind (s.sweepTask_asks report t) fun report' _ _ => ih report'

theorem sweep_asks (s : Scheduler) (limit : Nat) : (s.sweep limit).Asks Effect.IsOrderly := by
  unfold sweep
  refine .lift trivial fun now => .tasks trivial (fun due => ?_) fun _ => trivial
  exact Work.Obeys.bind (s.sweepTasks_asks _ due) fun _ _ _ => trivial

/-- **What is asked of a scheduler.** -/
inductive Calls : Work Unit → Prop
  /-- A task is made. -/
  | create (s : Scheduler) (draft : TaskDraft) : Calls ((fun _ => ()) <$> (s.create draft).run)
  /-- The tasks of an event are made. -/
  | scheduleEvent (s : Scheduler) (e : Event) : Calls ((fun _ => ()) <$> (s.scheduleEvent e).run)
  /-- A task is cancelled. -/
  | cancel (id : String) : Calls ((fun _ => ()) <$> (cancel id).run)
  /-- The tasks of an event are cancelled. -/
  | cancelEvent (eventId : String) : Calls ((fun _ => ()) <$> (cancelEvent eventId).run)
  /-- The tasks that are due are taken on. -/
  | sweep (s : Scheduler) (limit : Nat) : Calls ((fun _ => ()) <$> (s.sweep limit).run)

/-- A program whose result is not looked at. -/
theorem asks_forgotten {α : Type} {j : Job α} (h : j.Asks Effect.IsOrderly) :
    Work.Asks Effect.IsOrderly ((fun _ => ()) <$> j.run) := by
  rw [← bind_pure_comp]
  exact .bind h.run fun _ _ _ => trivial

/-- **Whatever is asked of a scheduler is orderly.** -/
theorem Calls.asks {p : Work Unit} (h : Calls p) : p.Asks Effect.IsOrderly := by
  cases h with
  | create s draft => exact asks_forgotten (s.create_asks draft)
  | scheduleEvent s e => exact asks_forgotten (s.scheduleEvent_asks e)
  | cancel id => exact asks_forgotten (cancel_asks id)
  | cancelEvent eventId => exact asks_forgotten (cancelEvent_asks eventId)
  | sweep s limit => exact asks_forgotten (s.sweep_asks limit)

end Scheduler

/-! ## What becomes of the records

A row of the store is written by the transitions only, and each of them keeps the task well
formed, if what is added and what is given up is orderly. So an orderly store stays so with every
orderly effect. -/

/-- **A task that was made is well formed.** -/
theorem Task.IsMade.isWellFormed {t : Task} (h : t.IsMade) : t.IsWellFormed := by
  obtain ⟨draft, n, id, now, hmake⟩ := h
  obtain ⟨sound, hcheck, htask⟩ := exists_of_bind_eq_ok hmake
  obtain ⟨hevent, ⟨text, haction⟩, hattempts⟩ := TaskDraft.sound_of_check hcheck
  cases htask
  exact
    { event := hevent
      attempts := hattempts
      action := Action.parse_name haction
      claim := Iff.rfl
      processedAt := by simp [TaskDraft.toTask]
      unclaimed := fun _ => rfl
      failed := fun hfailed => by cases hfailed
      tried := fun _ => by simp [TaskDraft.toTask] }

namespace TaskStore

/-- **Every task is stored under its own identifier and is well formed.** -/
def IsOrderly (s : TaskStore) : Prop :=
  ∀ x t, s.find? x = some t → t.id = x ∧ t.IsWellFormed

/-- **An orderly entry leaves a well-formed task.**

By the ways in which an entry moves a row. A task that was added is well formed because it was
made; every other move starts from a task that is. -/
theorem Entry.Moves.isWellFormed {x : String} {e : Entry} {row : Option Task} {t' : Task}
    (h : Entry.Moves x e row (some t')) (horderly : (Effect.request (.tasks e.call)).IsOrderly)
    (hrow : ∀ t, row = some t → t.IsWellFormed) : t'.IsWellFormed := by
  cases h with
  | kept _ => exact hrow t' rfl
  | inserted _ => exact Task.IsMade.isWellFormed horderly
  | claimed h => exact (hrow _ rfl).of_claim h
  | extended h => exact (hrow _ rfl).of_extendLease h
  | processed h => exact (hrow _ rfl).of_process h
  | retried h => exact (hrow _ rfl).of_failedAttempt h
  | failed h => exact (hrow _ rfl).of_fail horderly h
  | skipped h => exact (hrow _ rfl).of_skip h

/-- **An orderly effect leaves an orderly store.** -/
theorem IsOrderly.answers {mayFail : Prop} {s s' : TaskStore} {e : Effect} {answer : e.Answer}
    (he : e.IsOrderly) (h : s.IsOrderly) (hanswer : Answers mayFail s e answer s') :
    s'.IsOrderly := by
  have hfiled : IsFiled s' := IsFiled.answers (fun x t hfind => (h x t hfind).1) hanswer
  intro x t' hfind
  refine ⟨hfiled x t' hfind, ?_⟩
  by_cases hcall : ∃ call, e = .request (.tasks call)
  · obtain ⟨call, rfl⟩ := hcall
    obtain ⟨now, hmoves⟩ := hanswer.moves x
    rw [hfind] at hmoves
    exact hmoves.isWellFormed he fun t ht => (h x t ht).2
  · rw [hanswer.eq_of_elsewhere fun call he => hcall ⟨call, he⟩] at hfind
    exact (h x t' hfind).2

end TaskStore

namespace Scheduler

open TaskStore (shared)

/-- **Whatever schedulers do at the same time, and whichever calls fail, every task is stored
under its own identifier and is well formed.**

The pool holds any number of programs, new ones can be started at any time, and each step is one
effect of one of them. As all effects are orderly (`Calls.asks`) and these keep the store orderly
(`TaskStore.IsOrderly.answers`), so does any number of steps. -/
theorem wellFormed_of_steps {pool : Pool TaskStore}
    (steps : Pool.Steps (shared True fun _ => False) Calls ⟨.empty, []⟩ pool) {x : String}
    {t : Task} (hfind : pool.state.find? x = some t) : t.id = x ∧ t.IsWellFormed := by
  have hempty : Pool.Keeps TaskStore.IsOrderly Effect.IsOrderly ⟨.empty, []⟩ :=
    ⟨(fun _ _ h => by cases h), (fun _ h => by cases h)⟩
  refine (hempty.steps (fun p hp => hp.asks) ?_ ?_ steps).state x t hfind
  · rintro s s' horderly ⟨entries, hhistory, hothers⟩
    cases hhistory with
    | nil => exact horderly
    | cons => exact (hothers _ List.mem_cons_self).elim
  · exact fun _ _ _ _ he horderly hanswer => horderly.answers he hanswer

/-- An undisturbed cancelling of the only task. -/
theorem reaches_cancel {t : Task} (h : t.status = .pending) (now : Instant) :
    Work.Reaches (shared True fun _ => False) (.only t) (cancel t.id).run (.ok ())
      (.only (t.finish .skipped none now)) := by
  have hskip : t.skip? now = some (t.finish .skipped none now) :=
    Task.skip?_eq_some_iff.mpr ⟨Task.isPending_iff.mpr h, rfl⟩
  unfold cancel
  refine TaskStore.reaches_tasks now (TaskStore.respond_get_only t) ?_
  show Work.Reaches _ _ (if t.status ≠ .pending then _ else _ : Job Unit).run _ _
  rw [if_neg (not_not_intro h)]
  refine TaskStore.reaches_elsewhere now (fun _ h => by cases h) ?_
  exact TaskStore.reaches_tasks now (TaskStore.respond_markSkipped_only hskip) (.done _ _)

/-- A task that is made and cancelled is skipped, and it is well formed. -/
theorem wellFormed_of_steps_of_cancelled : ∃ pool t,
    Pool.Steps (shared True fun _ => False) Calls ⟨.empty, []⟩ pool ∧
      pool.state.find? "task" = some t ∧ t.status = .skipped ∧ t.IsWellFormed := by
  let s : Scheduler := ⟨"scheduler", { maxRetries := 1 }⟩
  let made := closureDraft.toTask ⟨.closure, .first, 2⟩ "task" .epoch
  have hmade : Work.Reaches (shared True fun _ => False) .empty
      ((fun _ => ()) <$> (s.create closureDraft).run) () (.only made) :=
    (s.reaches_create (check_closureDraft 1) "task" .epoch).map fun _ => ()
  have hcancelled := (reaches_cancel (t := made) rfl .epoch).map fun _ => ()
  have steps := (Pool.steps_of_call (Calls.create s closureDraft) hmade []).trans
    (Pool.steps_of_call (Calls.cancel "task") hcancelled _)
  have hfind := TaskStore.find?_only (made.finish .skipped none .epoch)
  exact ⟨_, _, steps, hfind, rfl, (wellFormed_of_steps steps hfind).2⟩

end Scheduler

end Gathering
