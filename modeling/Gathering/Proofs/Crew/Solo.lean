import Gathering.Proofs.Crew.Basic
import Gathering.Proofs.Scheduler.Single

/-!
# A sweeper on its own

While time stands still and nobody else moves, a sweeper goes on alone
(`Hand.Goes`). Stretches of this kind can be put together to runs of a crew
(`Crew.Run.of_goes`), and they are described here for a store that holds one
task: how a sweeper comes to hold it, how its attempt fails, and how it comes to
send a reminder to one participant.

A crew whose sweepers take turns in such stretches is no restriction where a run is
only to be shown to exist. That is what these lemmas are for: they give the runs
that show a bound to be the best one, or an exception to be needed, and the
witnesses of statements about all runs.

Every stretch is given with its steps, so that it can be seen in a run what has
happened and in which order.
-/

namespace Gathering

/-- **A sweeper goes on alone**: its steps, and what becomes of it and of the tasks. -/
inductive Hand.Goes (s : Scheduler) (clock : Nat) (now : Instant) :
    Hand → TaskStore → List Deed → Hand → TaskStore → Prop
  /-- The sweeper does nothing. -/
  | nil (hand : Hand) (tasks : TaskStore) : Goes s clock now hand tasks [] hand tasks
  /-- The sweeper takes a step, the tasks become what the step leaves, and it goes on from there.
  -/
  | cons {hand hand₁ hand₂ : Hand} {tasks tasks₁ tasks₂ : TaskStore} {d : Deed} {ds : List Deed}
      (step : Hand.Step s clock hand d hand₁) (leaves : Crew.Leaves tasks now d tasks₁)
      (rest : Goes s clock now hand₁ tasks₁ ds hand₂ tasks₂) :
      Goes s clock now hand tasks (d :: ds) hand₂ tasks₂

/-- A stretch of one sweeper is a run of its crew. -/
theorem Crew.Run.of_goes {ι : Type} [DecidableEq ι] {S : Setting ι} {pace : Crew ι → Nat → Prop}
    {i : ι} {clock : Nat} {hand hand' : Hand} {tasks tasks' : TaskStore} {ds : List Deed}
    (h : Hand.Goes (S.scheduler i) clock (S.wall.elapsed clock) hand tasks ds hand' tasks')
    {hands : ι → Hand} (hhand : hands i = hand) :
    Run S pace ⟨clock, tasks, hands⟩ (ds.map (.by_ i))
      ⟨clock, tasks', Function.update hands i hand'⟩ := by
  induction h generalizing hands with
  | nil hand tasks =>
    rw [← hhand, Function.update_eq_self]
    exact .nil _
  | @cons hand hand₁ hand₂ tasks tasks₁ tasks₂ d ds step leaves _ ih =>
    subst hhand
    have first : Step S pace ⟨clock, tasks, hands⟩ (.by_ i d)
        ⟨clock, tasks₁, Function.update hands i hand₁⟩ := .by_ i step leaves
    have others := @ih (Function.update hands i hand₁) (Function.update_self i hand₁ hands)
    rw [Function.update_idem] at others
    exact (Run.single first).append others

namespace Hand

variable {s : Scheduler} {clock : Nat} {now : Instant} {hand' : Hand}
  {tasks tasks' tasks'' : TaskStore} {ds : List Deed}

/-! ## Single steps

One lemma for each kind of step that the stretches below are made of. They are stated as rules
that put a step before what comes after it, so that a stretch is proved in the order in which it
happens. -/

theorem Goes.begins (limit : Nat)
    (rest : Goes s clock now (.working (s.sweep limit).run) tasks ds hand' tasks') :
    Goes s clock now .idle tasks (.begins :: ds) hand' tasks' :=
  .cons (.begins limit) (.kept fun _ _ h => by cases h) rest

theorem Goes.asksNow {next : Instant → Work (Except Error SweepReport)}
    (rest : Goes s clock now (.working (next now)) tasks ds hand' tasks') :
    Goes s clock now (.working (.ask (.request .now) next)) tasks (.asks .now now :: ds) hand'
      tasks' :=
  .cons (Step.asks (r := .now) now) (.answer .now) rest

theorem Goes.asksTasks {call : TaskStore.Call} {answer : Except Error call.Answer}
    {next : Except Error call.Answer → Work (Except Error SweepReport)}
    (h : tasks.respond now call = (answer, tasks'))
    (rest : Goes s clock now (.working (next answer)) tasks' ds hand' tasks'') :
    Goes s clock now (.working (.ask (.request (.tasks call)) next)) tasks
      (.asks (.tasks call) answer :: ds) hand' tasks'' := by
  have hanswer : answer = (tasks.respond now call).1 := by rw [h]
  have htasks : tasks' = (tasks.respond now call).2 := by rw [h]
  subst hanswer htasks
  exact .cons (.asks _) (.answer (.tasks call)) rest

theorem Goes.asksOthers {r : Request} {next : r.Answer → Work (Except Error SweepReport)}
    (answer : r.Answer) (h : r.isElsewhere = true)
    (rest : Goes s clock now (.working (next answer)) tasks ds hand' tasks') :
    Goes s clock now (.working (.ask (.request r) next)) tasks (.asks r answer :: ds) hand'
      tasks' :=
  .cons (.asks answer) (.answer (.elsewhere answer h)) rest

end Hand

/-! ## Stretches -/

namespace Scheduler

variable {t u u' : Task} {now : Instant}

/-! ### A claim -/

/-- What a sweeper does with a task that it has claimed, and then something else. -/
def carryOut (s : Scheduler) (t : Task)
    (k : Except Error Settlement → Work (Except Error SweepReport)) :
    Work (Except Error SweepReport) := do
  let outcome ← (s.execute t).run
  let settled ← (s.settle t outcome).run
  k settled

/-- The steps of a sweeper from the beginning of a sweep until it has claimed the one task. -/
def claimDeeds (s : Scheduler) (t : Task) (now : Instant) : List Deed :=
  [.begins, .asks .now now, .asks (.tasks (.listDue now 1)) (.ok [t]), .asks .isCancelled false,
    .asks .now now,
    .asks (.tasks (.claim t.id s.id (now.add s.config.claimLease) now))
      (.ok (some (s.claimed t now)))]

/-- The report of a sweep over one task, by how the task was settled. -/
def tallied : Except Error Settlement → Work SweepReport
  | .error _ => pure { due := 1 }
  | .ok settlement => pure (({ due := 1 } : SweepReport).count settlement)

/-- **A sweeper claims the one task** that is due and not held.

What comes after the claim is left open: the sweeper is about to carry out the task, and the
stretch goes on as that does. So the stretches below can be put behind it. -/
theorem goes_claim (s : Scheduler) (clock : Nat) (hdue : t.scheduledAt ≤ now)
    (hclaimable : t.isClaimable now = true) :
    ∃ k, ∀ ds hand' tasks',
      Hand.Goes s clock now (.working (s.carryOut (s.claimed t now) k)) (.only (s.claimed t now)) ds
          hand' tasks' →
        Hand.Goes s clock now .idle (.only t) (s.claimDeeds t now ++ ds) hand' tasks' := by
  have hpending : t.isPending = true :=
    Task.isPending_iff.mpr (Task.isClaimable_iff.mp hclaimable).1
  have hlist : (TaskStore.only t).respond now (.listDue now 1) = (.ok [t], .only t) :=
    TaskStore.respond_listDue_only hpending hdue
  refine ⟨fun settled => ((tallied settled).bind fun r => s.sweepTasks r []).bind
    (Program.done ∘ Except.ok), fun ds hand' tasks' rest => ?_⟩
  refine .begins 1 (.asksNow (.asksTasks hlist (.asksOthers (r := .isCancelled) false rfl
    (.asksNow (.asksTasks (respond_claim_claimed hclaimable) ?_)))))
  -- the program is the same up to how its parts are put together
  show Hand.Goes s clock now
    (.working ((((s.execute (s.claimed t now)).run.bind fun outcome =>
      (s.settle (s.claimed t now) outcome).run.bind tallied).bind
      fun r => s.sweepTasks r []).bind (Program.done ∘ Except.ok))) _ _ _ _
  simp only [Program.bind_assoc] at rest ⊢
  exact rest

/-- The steps of a sweeper in a sweep over the one task, which somebody else holds. -/
def refusedDeeds (s : Scheduler) (t : Task) (now : Instant) : List Deed :=
  [.begins, .asks .now now, .asks (.tasks (.listDue now 1)) (.ok [t]), .asks .isCancelled false,
    .asks .now now, .asks (.tasks (.claim t.id s.id (now.add s.config.claimLease) now)) (.ok none),
    .ends]

theorem claim_mem_refusedDeeds (s : Scheduler) (t : Task) (now : Instant) :
    .asks (.tasks (.claim t.id s.id (now.add s.config.claimLease) now)) (.ok none) ∈
      s.refusedDeeds t now := by
  simp [refusedDeeds]

/-- **A sweeper comes to a task that is held**: its claim is refused, and its sweep is over. -/
theorem goes_refused (s : Scheduler) (clock : Nat) (hdue : t.scheduledAt ≤ now)
    (hpending : t.isPending = true) (hheld : t.isClaimable now = false) :
    Hand.Goes s clock now .idle (.only t) (s.refusedDeeds t now) .idle (.only t) := by
  have hlist : (TaskStore.only t).respond now (.listDue now 1) = (.ok [t], .only t) :=
    TaskStore.respond_listDue_only hpending hdue
  have hrefused : (TaskStore.only t).respond now
      (.claim t.id s.id (now.add s.config.claimLease) now) = (.ok none, .only t) :=
    TaskStore.respond_claim_only_of_held hheld
  refine .begins 1 (.asksNow (.asksTasks hlist (.asksOthers (r := .isCancelled) false rfl
    (.asksNow (.asksTasks hrefused ?_)))))
  exact .cons (.ends (.ok { due := 1, contended := 1 })) (.kept fun _ _ h => by cases h) (.nil _ _)

/-! ### A failure -/

/-- The steps of a sweeper whose attempt fails because the store of events does not answer. -/
def failDeeds (s : Scheduler) (t u : Task) (now : Instant) : List Deed :=
  [.asks (.roster (.updateEventStatus t.eventId .completed)) (.error unanswered), .asks .now now,
    .asks (.tasks (.incrementRetries t.id s.id unanswered.message)) (.ok (some (u.retries + 1)))]

/-- **An attempt to close an event fails**, and another one is asked for.

The sweeper goes by the task `t` as it was claimed, the store by the task `u` that it holds now.
They need not be the same: the lease may have ended in between, others may have claimed the task
and failed. All that is asked of `u` is that this sweeper may settle it. -/
theorem goes_fail (s : Scheduler) (clock : Nat) (now : Instant) (haction : t.action = .closure)
    (hleft : t.isLastAttempt = false) (hid : u.id = t.id)
    (hsettleable : u.isSettleableBy s.id = true)
    (k : Except Error Settlement → Work (Except Error SweepReport)) :
    Hand.Goes s clock now (.working (s.carryOut t k)) (.only u) (s.failDeeds t u now)
      (.working (k (.ok .retried))) (.only (failedOnce u now)) := by
  have hretried : (TaskStore.only u).respond now
      (.incrementRetries t.id s.id unanswered.message) =
        (.ok (some (u.retries + 1)), .only (failedOnce u now)) :=
    hid ▸ respond_incrementRetries_only hsettleable
  unfold carryOut
  rw [execute_closure haction]
  refine .asksOthers (r := .roster _) (.error unanswered) rfl ?_
  show Hand.Goes s clock now
    (.working ((s.settle t (.error unanswered)).run.bind fun settled => k settled)) _ _ _ _
  rw [settle_unanswered hleft]
  exact .asksNow (.asksTasks hretried (.nil _ _))

/-! ### A reminder -/

/-- The reminder of an event to one participant. -/
def reminderTo (s : Scheduler) (event : Event) (p : Participant) : Batch where
  kind := .reminder
  event := event
  targets := [p]
  width := max s.config.fanoutConcurrency 1
  limit := s.config.sendTimeout

/-- Its only send is under way, and will be cut off or take as long as it may. -/
def sendingTo (s : Scheduler) (event : Event) (p : Participant) (clock : Nat) :
    Rehearsal.Sending :=
  (Rehearsal.sendingOf (s.reminderTo event p)).start
    ((Rehearsal.sendingOf (s.reminderTo event p)).flight p clock s.config.sendTimeout.nanos) []

/-- What is left of a sweep when the send is over. -/
def concludeSending (s : Scheduler) (t : Task)
    (k : Except Error Settlement → Work (Except Error SweepReport))
    (results : List (Participant × Except Error Unit)) : Work (Except Error SweepReport) := do
  let settled ← (s.settle t (outcomeOf .reminder 1 results)).run
  k settled

/-- The deadline of a sweeper that is told the time and has one send to make. -/
def sendDeadline (s : Scheduler) (now : Instant) : Instant :=
  now.add (leaseBudget s.config 1 (max s.config.fanoutConcurrency 1))

/-- The steps of a sweeper from a claim until its only send is under way. -/
def sendDeeds (s : Scheduler) (t : Task) (event : Event) (p : Participant) (now : Instant) :
    List Deed :=
  [.asks (.roster (.getEvent t.eventId)) (.ok (some event)),
    .asks (.roster (.listParticipants t.eventId)) (.ok [p]), .asks .now now,
    .asks (.tasks (.extendLease t.id s.id (s.sendDeadline now))) (.ok true),
    .launches (s.reminderTo event p), .starts p]

/-- **A reminder is under way** after the lease has been extended.

The one participant is confirmed, so the sends are not skipped, and the only send takes as long as
its time limit allows or longer. -/
theorem goes_send (s : Scheduler) (clock : Nat) (event : Event) {p : Participant}
    (haction : t.action = .reminder) (hp : p.status = .confirmed) (hid : u.id = t.id)
    (hextend : u.extendLease? s.id (s.sendDeadline now) = some u') (hid' : u'.id = u.id)
    (k : Except Error Settlement → Work (Except Error SweepReport)) :
    Hand.Goes s clock now (.working (s.carryOut t k)) (.only u) (s.sendDeeds t event p now)
      (.sending (s.reminderTo event p) (s.sendingTo event p clock) (s.concludeSending t k))
      (.only u') := by
  have hextended : (TaskStore.only u).respond now (.extendLease t.id s.id (s.sendDeadline now)) =
      (.ok true, .only u') := by
    have h := @TaskStore.transition_only u u' (·.extendLease? s.id (s.sendDeadline now))
      hextend hid'
    unfold TaskStore.respond TaskStore.perform
    rw [← hid]
    simp only [h, Except.map, TaskStore.happened, Option.isSome_some]
  have htargets : Outreach.reminder.targets [p] = [p] := by
    simp [Outreach.targets, Outreach.audience, hp]
  have hstart : (Rehearsal.sendingOf (s.reminderTo event p)).startable? = some (p, []) := by
    unfold FanOut.startable?
    show (if 0 < max s.config.fanoutConcurrency 1 then _ else _) = _
    rw [if_pos (Nat.lt_of_lt_of_le Nat.zero_lt_one (Nat.le_max_right _ 1))]
  -- from here on the program is followed, one question after the other
  have hexecute : s.execute t = s.reachOut t .reminder := by
    unfold execute
    rw [haction]
  unfold carryOut
  rw [hexecute]
  refine .asksOthers (r := .roster (.getEvent t.eventId)) (.ok (some event)) rfl ?_
  refine .asksOthers (r := .roster (.listParticipants t.eventId)) (.ok [p]) rfl ?_
  show Hand.Goes _ _ _ (.working ((ExceptT.run
    (if (Outreach.reminder.targets [p]).isEmpty then pure () else _) >>= fun _ => _))) _ _ _ _
  rw [htargets]
  refine .asksNow (.asksTasks hextended ?_)
  exact .cons .launches (.kept fun _ _ h => by cases h)
    (.cons (.starts s.config.sendTimeout.nanos hstart) (.kept fun _ _ h => by cases h) (.nil _ _))

/-- The task while its reminder is under way. -/
def renewed (s : Scheduler) (t : Task) (now : Instant) : Task :=
  { s.claimed t now with
    claimedUntil := some ((s.claimed t now).laterDeadline (s.sendDeadline now)) }

/-- **A sweeper claims a reminder and sends it.** -/
theorem goes_reminder (s : Scheduler) (clock : Nat) (event : Event) {p : Participant}
    (haction : t.action = .reminder) (hp : p.status = .confirmed) (hdue : t.scheduledAt ≤ now)
    (hclaimable : t.isClaimable now = true) :
    ∃ next, Hand.Goes s clock now .idle (.only t)
      (s.claimDeeds t now ++ s.sendDeeds t event p now)
      (.sending (s.reminderTo event p) (s.sendingTo event p clock) next)
      (.only (s.renewed t now)) := by
  obtain ⟨k, hclaims⟩ := s.goes_claim clock hdue hclaimable
  have hpending : t.status = .pending := (Task.isClaimable_iff.mp hclaimable).1
  have hextend : (s.claimed t now).extendLease? s.id (s.sendDeadline now) =
      some (s.renewed t now) :=
    Task.extendLease?_eq_some_iff.mpr ⟨Task.isHeldBy_iff.mpr ⟨hpending, rfl⟩, rfl⟩
  have hsends := s.goes_send clock event (t := s.claimed t now) haction hp rfl hextend rfl k
  exact ⟨_, hclaims _ _ _ hsends⟩

end Scheduler

end Gathering
