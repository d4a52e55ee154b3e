import Gathering.Proofs.Scheduler.Visits
import Gathering.Proofs.Store.Sharing
import Gathering.Proofs.Store.Single
import Gathering.Scheduler.Planning

/-!
# Sweeps over one task

A store that holds one task, and a sweeper that is left alone with it: what the
sweeper does is then settled by the task and by how its attempt comes out. A task
that is due and not held is claimed, attempted and settled (`reaches_sweep`). The
attempt to close an event asks the store of events for a new status, so that it can
be made to fail and to succeed: it is retried in the one case
(`reaches_sweep_retried`), and processed in the other (`reaches_sweep_processed`).

These runs show that what is said elsewhere of all sweeps is said of something.
-/

namespace Gathering.Scheduler

open TaskStore (shared)

variable {mayFail : Prop} {others : TaskStore.Entry → Prop} {s : Scheduler} {t : Task}
  {st st' : TaskStore} {now : Instant}

/-! ## A task is made -/

/-- A sound draft becomes the only task of a store that has held none. -/
theorem reaches_create (s : Scheduler) {draft : TaskDraft} {sound : TaskDraft.Sound}
    (h : draft.check s.config.maxRetries = .ok sound) (id : String) (now : Instant) :
    Work.Reaches (shared mayFail others) .empty (s.create draft).run
      (.ok (draft.toTask sound id now)) (.only (draft.toTask sound id now)) := by
  unfold create
  refine TaskStore.reaches_elsewhere now (fun _ h => by cases h) ?_
  show Work.Reaches _ _ (Job.checked (draft.check s.config.maxRetries) >>= _ : Job Task).run _ _
  rw [h]
  refine TaskStore.reaches_elsewhere (e := .request .freshId) id (fun _ h => by cases h) ?_
  exact TaskStore.reaches_tasks now (TaskStore.respond_insert_empty _) (.done _ _)

/-- The draft of a task that closes an event and has two attempts. -/
def closureDraft : TaskDraft where
  eventId := "event"
  action := some "closure"
  scheduledAt := some .first
  maxRetries := some 2

theorem check_closureDraft (n : Nat) : closureDraft.check n = .ok ⟨.closure, .first, 2⟩ := by
  have hname : Action.ofTrimmed (Text.trim "closure") = .closure := by decide +kernel
  rw [← hname]
  rfl

/-! ## Its attempts -/

/-- The task as the sweeper has claimed it. -/
def claimed (s : Scheduler) (t : Task) (now : Instant) : Task :=
  { t with
    claimedBy := some s.id
    claimedUntil := some (now.add s.config.claimLease)
    updatedAt := now }

theorem isSettleableBy_claimed (hclaimable : t.isClaimable now = true) :
    (s.claimed t now).isSettleableBy s.id = true :=
  Task.isSettleableBy_iff.mpr
    ⟨(Task.isClaimable_iff.mp hclaimable).1, fun _ h => (Option.some_inj.mp h).symm⟩

theorem respond_claim_claimed (hclaimable : t.isClaimable now = true) :
    (TaskStore.only t).respond now (.claim t.id s.id (now.add s.config.claimLease) now) =
      (.ok (some (s.claimed t now)), .only (s.claimed t now)) :=
  TaskStore.respond_claim_only (Task.claim?_eq_some_iff.mpr ⟨hclaimable, rfl⟩)

/-- The error of a store that does not answer. -/
def unanswered : Error := .store "no answer"

/-- A task of which one more attempt has failed. -/
def failedOnce (u : Task) (now : Instant) : Task :=
  { u with
    retries := u.retries + 1
    errorMessage := some unanswered.message
    claimedBy := none
    claimedUntil := none
    updatedAt := now }

theorem respond_incrementRetries_only (hsettleable : t.isSettleableBy s.id = true) :
    (TaskStore.only t).respond now (.incrementRetries t.id s.id unanswered.message) =
      (.ok (some (t.retries + 1)), .only (failedOnce t now)) := by
  have hretry : t.failedAttempt? s.id unanswered.message now = some (failedOnce t now) :=
    Task.failedAttempt?_eq_some_iff.mpr ⟨hsettleable, rfl⟩
  have h := @TaskStore.transition_only t _ (·.failedAttempt? s.id unanswered.message now) hretry rfl
  unfold TaskStore.respond TaskStore.perform
  simp only [h, Except.map, Option.map]
  rfl

theorem execute_closure (haction : t.action = .closure) :
    s.execute t = Job.roster (.updateEventStatus t.eventId .completed) := by
  unfold execute
  rw [haction]

/-- A failure that may pass is settled by asking for another attempt, if there are some left. -/
theorem settle_unanswered (hleft : t.isLastAttempt = false) :
    s.settle t (.error unanswered) = do
      let _ ← Job.now
      return ifHappened (← Job.tasks (.incrementRetries t.id s.id unanswered.message)).isSome
        .retried := by
  unfold settle
  simp only [hleft]
  rfl

/-- To close an event is to ask for a new status, and comes out as this is answered. -/
theorem reaches_execute_closure (haction : t.action = .closure) (answer : Except Error Unit) :
    Work.Reaches (shared mayFail others) st (s.execute t).run answer st := by
  rw [execute_closure haction]
  exact TaskStore.reaches_elsewhere answer (fun _ h => by cases h) (.done _ _)

/-- After a success the task is processed. -/
theorem reaches_settle_processed (hsettleable : t.isSettleableBy s.id = true) (now : Instant) :
    Work.Reaches (shared mayFail others) (.only t) (s.settle t (.ok ())).run (.ok .processed)
      (.only (t.finish .processed none now)) := by
  have hprocess : t.process? s.id now = some (t.finish .processed none now) :=
    Task.process?_eq_some_iff.mpr ⟨hsettleable, rfl⟩
  exact TaskStore.reaches_elsewhere now (fun _ h => by cases h)
    (TaskStore.reaches_tasks now (TaskStore.respond_markProcessed_only hprocess) (.done _ _))

/-- After a failure that may pass, and with attempts left, the task is left for another one. -/
theorem reaches_settle_retried (hsettleable : t.isSettleableBy s.id = true)
    (hleft : t.isLastAttempt = false) (now : Instant) :
    Work.Reaches (shared mayFail others) (.only t) (s.settle t (.error unanswered)).run
      (.ok .retried) (.only (failedOnce t now)) := by
  rw [settle_unanswered hleft]
  exact TaskStore.reaches_elsewhere now (fun _ h => by cases h)
    (TaskStore.reaches_tasks now (respond_incrementRetries_only hsettleable) (.done _ _))

/-! ## A sweep -/

/-- **A sweep over the one task** that is due and not held claims it. What is left open is how the
attempt comes out, and how it is settled. -/
theorem reaches_sweep {outcome : Except Error Unit} {settlement : Settlement}
    (hdue : t.scheduledAt ≤ now) (hclaimable : t.isClaimable now = true)
    (executed : Work.Reaches (shared mayFail others) (.only (s.claimed t now))
      (s.execute (s.claimed t now)).run outcome st)
    (settled : Work.Reaches (shared mayFail others) st
      (s.settle (s.claimed t now) outcome).run (.ok settlement) st') :
    Work.Reaches (shared mayFail others) (.only t) (s.sweep 1).run
      (.ok (({ due := 1 } : SweepReport).count settlement)) st' := by
  have hpending : t.isPending = true :=
    Task.isPending_iff.mpr (Task.isClaimable_iff.mp hclaimable).1
  -- the claim succeeds, then the action is executed and the attempt settled
  have hvisit : Work.Reaches (shared mayFail others) (.only t) (s.visit t)
      (.attempted (s.claimed t now) outcome (.ok settlement)) st' := by
    refine TaskStore.reaches_elsewhere now (fun _ h => by cases h)
      (TaskStore.reaches_tasks now (respond_claim_claimed hclaimable) ?_)
    show Work.Reaches _ _ ((s.execute (s.claimed t now)).run >>= fun outcome =>
      (s.settle (s.claimed t now) outcome).run >>= fun settled =>
        pure (Visit.attempted (s.claimed t now) outcome settled))
        _ _
    exact .bind executed (.bind settled (.done _ _))
  have hvisits : Work.Reaches (shared mayFail others) (.only t) (s.visits [t])
      [.attempted (s.claimed t now) outcome (.ok settlement)] st' := by
    refine TaskStore.reaches_elsewhere false (fun _ h => by cases h) ?_
    show Work.Reaches _ _ (s.visit t >>= fun v => pure [v]) _ _
    exact .bind hvisit (.done _ _)
  -- the task is the only one that is listed, and nobody has cancelled the sweep
  have hchronicle : Work.Reaches (shared mayFail others) (.only t) (s.chronicle 1).run
      (.ok ([t], [.attempted (s.claimed t now) outcome (.ok settlement)])) st' := by
    refine TaskStore.reaches_elsewhere now (fun _ h => by cases h) (TaskStore.reaches_tasks now
      (TaskStore.respond_listDue_only hpending hdue) ?_)
    show Work.Reaches _ _
      (ExceptT.lift (s.visits [t]) >>= fun vs => pure ([t], vs) : Job (List Task × List Visit)).run
        _ _
    rw [ExceptT.run_bind_lift]
    exact .bind hvisits (.done _ _)
  rw [sweep_eq]
  exact hchronicle.map (Except.map SweepReport.tally)

/-- **A sweep closes the event**, and the task is processed. -/
theorem reaches_sweep_processed (haction : t.action = .closure) (hdue : t.scheduledAt ≤ now)
    (hclaimable : t.isClaimable now = true) :
    Work.Reaches (shared mayFail others) (.only t) (s.sweep 1).run
      (.ok { due := 1, processed := 1 }) (.only ((s.claimed t now).finish .processed none now)) :=
  reaches_sweep hdue hclaimable (reaches_execute_closure haction (.ok ()))
    (reaches_settle_processed (isSettleableBy_claimed hclaimable) now)

/-- **A sweep cannot close the event**, and the task is left for another attempt. -/
theorem reaches_sweep_retried (haction : t.action = .closure) (hdue : t.scheduledAt ≤ now)
    (hclaimable : t.isClaimable now = true) (hleft : t.isLastAttempt = false) :
    Work.Reaches (shared mayFail others) (.only t) (s.sweep 1).run
      (.ok { due := 1, retried := 1 }) (.only (failedOnce (s.claimed t now) now)) :=
  reaches_sweep hdue hclaimable (reaches_execute_closure haction (.error unanswered))
    (reaches_settle_retried (isSettleableBy_claimed hclaimable) hleft now)

end Gathering.Scheduler
