import Gathering.Proofs.Service.Backstage

/-!
# The life of a service

A service and its sweeper, from the beginning: the service is started and shut down in
any order, the cache is well or not, and the sweeper sweeps in the background while
others use the store of tasks. The calls alone decide whether there is a sweeper, and
there is never more than one (`Service.lifecycle`).

A shutdown tells the sweeper to stop, and from then on it heeds its token. It does not
stop at once: a claim that was under way is still granted, and the task is executed
and settled (`Service.not_stopsAtOnce`). There is no second one.

What is known of calls and what is known of sweepers is put together at one place: a
shutdown of a service that runs. Its one effect tells the sweeper to stop, at a
moment at which the sweeper has some log, and from there on the log goes on with
what a sweeper does that heeds its token.
-/

namespace Gathering

open TaskStore (IsFiled)

namespace Service

open Backstage (Note Sweeper Heeds claimed surroundings)

variable {s s' : Service} {c : Call} {turns : List (Turn Backstage)} {answer : Except Error Unit}
  {dones : List (Done Backstage)} {st st' : Backstage}

/-! ## The sweeper of a service

A service knows its sweeper by number. That there is one under this number follows from its having
been started, and that it is the same one later on from the logs, which are only ever added to. -/

/-- **A call has told a sweeper to stop.** Until then this had happened to the sweeper, and since
then, up to a later time, that. -/
def Done.Stops (d : Done Backstage) (number : Nat) (later : Backstage) (before after : List Note) :
    Prop :=
  ∃ told ended w w', d.turns = [told] ∧
    told.deed = ⟨.stopSweeper number (some shutdownTimeout), ended⟩ ∧
    told.before.sweepers[number]? = some w ∧ w.log = before ∧
    later.sweepers[number]? = some w' ∧ w'.log = before ++ .stopped :: after

/-- The sweeper of a service that runs is there. -/
def HasSweeper (s : Service) (st : Backstage) : Prop :=
  ∀ number, s.state = .running number → ∃ w, st.sweepers[number]? = some w

theorem HasSweeper.drifts (h : s.HasSweeper st) (hdrifts : surroundings.Drifts st st') :
    s.HasSweeper st' := by
  intro number hrunning
  obtain ⟨w, hw⟩ := h number hrunning
  obtain ⟨w', hw', _⟩ := Backstage.keeps_drifts hdrifts number w hw
  exact ⟨w', hw'⟩

/-- The sweeper that a call has started is there. -/
theorem CallRun.hasSweeper (run : CallRun surroundings s c st turns answer s' st')
    (h : s.HasSweeper st) : s'.HasSweeper st' := by
  intro number hrunning
  cases run with
  | refused h' _ _ => cases h'.symm.trans hrunning
  | @started _ _ _ st₃ _ _ _ _ _ _ spawned =>
    cases hrunning
    cases spawned with
    | spawns scheduler config => exact ⟨_, List.getElem?_concat_length⟩
    | elsewhere hspawn _ _ => exact absurd rfl (hspawn _ _)
  | startedAgain _ | closedAgain _ => exact h number hrunning
  | closed _ | stopped _ _ _ => cases hrunning

/-- **A shutdown tells the sweeper to stop**, and this stays written down. -/
theorem CallRun.stops {number : Nat} {later : Backstage}
    (run : CallRun surroundings s .shutdown st turns answer s' st')
    (hrunning : s.state = .running number) (h : s.HasSweeper st)
    (hdrifts : surroundings.Drifts st' later) :
    ∃ before after, Done.Stops ⟨.shutdown, s, turns, answer, s'⟩ number later before after := by
  cases run with
  | closed h' | closedAgain h' => cases h'.symm.trans hrunning
  | @stopped _ st₁ _ number' ended h' others told =>
    cases h'.symm.trans hrunning
    obtain ⟨w, hw⟩ := h.drifts (.single (.inl others)) number hrunning
    cases told with
    | elsewhere _ hstop _ => exact absurd rfl (hstop _ _)
    | stops _ _ _ hsteps =>
      have hstopped : (st₁.stop number).sweepers[number]? = some w.stop := by
        simp [Backstage.stop, hw]
      obtain ⟨w₂, hw₂, hlog₂⟩ := Backstage.keeps_steps hsteps number w.stop hstopped
      obtain ⟨w', hw', hlog'⟩ := Backstage.keeps_drifts hdrifts number w₂ hw₂
      obtain ⟨after, hlog⟩ := hlog₂.trans hlog'
      refine ⟨w.log, after, _, ended, w, w', rfl, rfl, hw, rfl, hw', ?_⟩
      rw [← hlog]
      simp [Sweeper.stop]

/-- **Every shutdown of a service that runs tells its sweeper to stop.**

By induction on the history: the sweeper of a service is there after each call, and what is
written down about the stop stays written down until the end. -/
theorem History.stops (history : History surroundings s st dones s' st') (h : s.HasSweeper st) :
    ∀ d ∈ dones, d.call = .shutdown → ∀ number, d.before.state = .running number →
      ∃ before after, d.Stops number st' before after := by
  induction history with
  | nil _ => exact fun _ h => by cases h
  | cons others run hmeets rest ih =>
    have run := runs_obey run hmeets
    have hthere := h.drifts (.single (.inl others))
    refine List.forall_mem_cons.mpr ⟨?_, ih (run.hasSweeper hthere)⟩
    rintro ⟨⟩ number hrunning
    exact run.stops hrunning hthere rest.drifts

/-! ## A claim that is under way

The run that shows why a sweeper does not stop at once. It has asked for its token, which was not
cancelled yet; then it is told to stop; then it makes its claim, which is granted. -/

/-- A service whose sweeps take on one task. -/
def single : Service where
  config := { sweeper := { batchSize := 1 } }
  schedulerId := "sweeper"

/-- Its sweeper. -/
def hired : Sweeper where
  scheduler := single.scheduler
  batchSize := 1

/-- A task that nobody knows how to do, which is done by doing nothing. -/
def unknownTask : Task := { (default : Task) with action := .unknown "" }

/-- The store with the one task. -/
def due : TaskStore := .only unknownTask

/-- The one task when the sweeper has claimed it. -/
def taken : Task :=
  { unknownTask with
    claimedBy := some single.schedulerId
    claimedUntil := some (Instant.epoch.add single.config.scheduler.claimLease) }

/-- What the sweeper does before it claims the one task. -/
def looking : List (Turn TaskStore) :=
  [⟨due, .request .now, .epoch, due⟩,
    ⟨due, .request (.tasks (.listDue .epoch 1)), .ok [unknownTask], due⟩,
    ⟨due, .request .isCancelled, false, due⟩, ⟨due, .request .now, .epoch, due⟩]

/-- The sweeper claims the one task. -/
def claiming : Turn TaskStore where
  before := due
  effect := .request (.tasks (.claim "" single.schedulerId
    (Instant.epoch.add single.config.scheduler.claimLease) .epoch))
  answer := .ok (some taken)
  after := .only taken

/-- A sweep looks before it claims the one task. -/
theorem exists_leadsBy_claiming : ∃ p p',
    Work.LeadsBy (TaskStore.shared True fun _ => True) due (single.scheduler.sweep 1).run looking p
        due ∧
      Work.LeadsBy (TaskStore.shared True fun _ => True) due p [claiming] p' (.only taken) :=
  ⟨_, _, TaskStore.leadsBy_elsewhere _ (fun _ h => by cases h)
    (TaskStore.leadsBy_tasks .epoch (TaskStore.respond_listDue_only rfl (Instant.le_refl _))
    (TaskStore.leadsBy_elsewhere _ (fun _ h => by cases h)
    (TaskStore.leadsBy_elsewhere _ (fun _ h => by cases h) (.refl _ _)))),
    TaskStore.leadsBy_tasks .epoch (TaskStore.respond_claim_only rfl) (.refl _ _)⟩

/-- **A service is shut down while its sweeper is about to claim a task**, and the claim is
granted. -/
theorem exists_history_of_claiming : ∃ dones s' st',
    History surroundings single ⟨due, []⟩ dones s' st' ∧
      dones.map (·.call) = [.start (.ok ()), .shutdown] ∧
      ∃ d ∈ dones, d.call = .shutdown ∧ d.Stops 0 st' (looking.map .took) [.took claiming] := by
  obtain ⟨p, p', hlooks, hclaims⟩ := exists_leadsBy_claiming
  have hlooking : Backstage.Steps ⟨due, [hired]⟩
      ⟨due, [{ hired with sweep := some p, log := looking.map .took }]⟩ := by
    refine .head (Backstage.step_only (.begins rfl)) (Backstage.steps_of_leadsBy hlooks rfl ?_)
    simp [looking, hired, Turn.deed, Answered.token?, Sweeper.isStopped]
  -- the token is set after the sweep has looked at it, and the claim that was begun is made
  have hclaiming : Backstage.Steps
      ⟨due, [{ hired with sweep := some p, log := looking.map .took ++ [.stopped] }]⟩
      ⟨.only taken, [{ hired with
        sweep := some p', log := looking.map .took ++ [.stopped] ++ [.took claiming] }]⟩ := by
    refine Backstage.steps_of_leadsBy hclaims rfl ?_
    simp [claiming, Turn.deed, Answered.token?]
  have hstart : Work.Runs surroundings ⟨due, []⟩ (single.obey (.start (.ok ()))) _
      (.ok (), { single with state := .running 0 }) ⟨due, [hired]⟩ :=
    .ask .refl (Backstage.answers_ping _ (.ok ())) (.ask .refl (.spawns _ _) (.done _ _))
  have hshutdown : Work.Runs surroundings
      ⟨due, [{ hired with sweep := some p, log := looking.map .took }]⟩
      (({ single with state := .running 0 } : Service).obey .shutdown) _
      (.ok (), { single with state := .closed })
      ⟨.only taken, [{ hired with
        sweep := some p', log := looking.map .took ++ [.stopped] ++ [.took claiming] }]⟩ :=
    .ask .refl (.stops 0 _ true hclaiming) (.done _ _)
  refine ⟨_, _, _, .cons .refl hstart ?_ (.cons hlooking hshutdown ?_ (.nil .refl)), rfl, _,
    List.mem_cons_of_mem _ List.mem_cons_self, rfl, _, _, _, _, rfl, rfl, rfl, rfl, rfl, ?_⟩
  · refine List.forall_mem_cons.mpr ⟨fun _ h => ?_, List.forall_mem_singleton.mpr fun _ h => ?_⟩
    · cases h
      rfl
    · cases congrArg Answered.effect h
  · exact fun _ _ => trivial
  · rw [List.append_assoc]
    rfl

/-! ## The life of a service

Everything that has been shown, of a service from its beginning, in one structure. -/

/-- **The life of a service that was new**, up to a time, by the calls. -/
structure Lifecycle (calls : List Call) (dones : List (Done Backstage)) (later : Backstage) :
    Prop where
  /-- It has started one sweeper at most. -/
  once : (spawned dones).length ≤ 1
  /-- It has started one if it was started with the cache well and not shut down before, and only
  then. -/
  iff_bringUp : spawned dones ≠ [] ↔ BringUp calls
  /-- It has only moved on: from new to running to closed, or from new to closed. -/
  isChain : List.IsChain (Relation.ReflGen ServiceState.Moves)
    (.fresh :: dones.map (·.after.state))
  /-- A start that found it new and the cache well has started its sweeper. -/
  started : ∀ d ∈ dones, d.before.state = .fresh → d.call = .start (.ok ()) →
    d.answer = .ok () ∧ ∃ number, d.spawned = [number] ∧ d.after.state = .running number
  /-- A start that found the cache not well has failed, and left it new. -/
  refused : ∀ d ∈ dones, d.before.state = .fresh → ∀ e, d.call = .start (.error e) →
    d.answer = .error e ∧ d.after = d.before ∧ d.spawned = []
  /-- A shutdown has closed it. -/
  closed : ∀ d ∈ dones, d.call = .shutdown → d.after.state = .closed
  /-- Whatever came too late has changed nothing: a start after it was new, and anything after a
  shutdown. -/
  late : dones.Pairwise fun d d' =>
    (d.after.state ≠ .fresh → d'.call.isStart = true → d'.IsIdle) ∧
      (d.call = .shutdown → d'.IsIdle)
  /-- A shutdown while it was running has told its sweeper to stop, and since then the sweeper has
  heeded its token. -/
  stopped : ∀ d ∈ dones, d.call = .shutdown → ∀ number, d.before.state = .running number →
    number ∈ spawned dones ∧
      ∃ before after, d.Stops number later before after ∧ Heeds before after
  /-- So has every other sweeper that was told to stop. -/
  heeds : ∀ w ∈ later.sweepers, ∀ before after, w.log = before ++ .stopped :: after →
    Heeds before after

/-- **The life of a service.** Whatever calls are made, and whatever the cache answers, they have
a history, and every history goes like this.

What is said of the calls comes from their induction (`Service.History`), and what is said of the
sweepers from the soundness that every step in the background keeps (`Backstage.Sound`). They meet
in the field about shutdowns. -/
theorem lifecycle {tasks : TaskStore} (hfiled : IsFiled tasks) {s : Service}
    (hfresh : s.state = .fresh) (calls : List Call) :
    (∃ dones s' st', History surroundings s ⟨tasks, []⟩ dones s' st' ∧
      dones.map (·.call) = calls) ∧
    ∀ dones s' st', History surroundings s ⟨tasks, []⟩ dones s' st' →
      dones.map (·.call) = calls → Lifecycle calls dones st' := by
  refine ⟨exists_history (fun _ => Relation.ReflTransGen.refl)
    (fun st pong => ⟨st, st.answers_ping pong⟩) Backstage.exists_answer s _ calls, ?_⟩
  rintro dones s' st' history rfl
  obtain ⟨honce, hiff⟩ := history.spawned_of_fresh hfresh
  have hsound := (Backstage.sound_of_isFiled hfiled).drifts history.drifts
  -- at the beginning there is no sweeper, hence every one that is stopped was started in this
  -- history
  have hnone : s.HasSweeper ⟨tasks, []⟩ := fun _ h => by cases hfresh.symm.trans h
  refine
    { once := honce
      iff_bringUp := hiff
      isChain := hfresh ▸ history.isChain
      started := fun d hd hd' hcall => ?_
      refused := fun d hd hd' e hcall => ?_
      closed := fun d hd hcall => ?_
      late := history.pairwise
      stopped := fun d hd hcall number hrunning => ⟨?_, ?_⟩
      heeds := fun w hw before after hlog => (hsound.sweepers w hw).heeds hlog }
  · obtain ⟨st₁, st₂, run⟩ := history.callRun d hd
    rw [hcall] at run
    exact run.of_started hd'
  · obtain ⟨st₁, st₂, run⟩ := history.callRun d hd
    rw [hcall] at run
    exact run.of_refused hd'
  · obtain ⟨st₁, st₂, run⟩ := history.callRun d hd
    rw [hcall] at run
    exact run.closed_of_shutdown
  · refine (history.mem_spawned_of_running d hd number hrunning).resolve_left fun h => ?_
    cases hfresh.symm.trans h
  · obtain ⟨before, after, hstops⟩ := history.stops hnone d hd hcall number hrunning
    refine ⟨before, after, hstops, ?_⟩
    obtain ⟨_, _, _, w', _, _, _, _, hw', hlog⟩ := hstops
    exact (hsound.sweepers w' (List.mem_of_getElem? hw')).heeds hlog

/-- The service with one task is shut down while its sweeper is about to claim the task; the sweeper
makes this claim, and heeds its token. -/
theorem lifecycle_of_claiming : IsFiled due ∧ single.state = .fresh ∧
    ∃ dones s' st', History surroundings single ⟨due, []⟩ dones s' st' ∧
      dones.map (·.call) = [.start (.ok ()), .shutdown] ∧
      (∃ d ∈ dones, d.call = .shutdown ∧ d.Stops 0 st' (looking.map .took) [.took claiming]) ∧
      Lifecycle [.start (.ok ()), .shutdown] dones st' := by
  have hfiled : IsFiled due := Scheduler.isFiled_only _
  obtain ⟨dones, s', st', history, hcalls, hstops⟩ := exists_history_of_claiming
  exact ⟨hfiled, rfl, dones, s', st', history, hcalls, hstops,
    (lifecycle hfiled rfl _).2 dones s' st' history hcalls⟩

/-! ## Stopping at once

What one may expect of a shutdown, and what does not hold. -/

/-- **A shutdown takes hold at once** if the sweeper changes no task that it has not claimed
before. -/
def StopsAtOnce : Prop :=
  ∀ {tasks : TaskStore} {s s' : Service} {dones : List (Done Backstage)} {st' : Backstage},
    IsFiled tasks → s.state = .fresh → History surroundings s ⟨tasks, []⟩ dones s' st' →
      ∀ d ∈ dones, d.call = .shutdown → ∀ number before after, d.Stops number st' before after →
        ∀ x, x ∉ claimed before →
          ∀ turn, .took turn ∈ after → turn.after.find? x = turn.before.find? x

/-- **A sweeper does not stop at once.**

The history in which a claim was under way is one in which a task is changed after the stop that
was not claimed before. -/
theorem not_stopsAtOnce : ¬ StopsAtOnce := by
  intro h
  obtain ⟨dones, s', st', history, _, d, hd, hcall, hstops⟩ := exists_history_of_claiming
  have hkept : claiming.after.find? "" = claiming.before.find? "" :=
    h (Scheduler.isFiled_only _) rfl history d hd hcall 0 _ _ hstops "" (by decide) claiming
      List.mem_cons_self
  have hbefore : claiming.before.find? "" = some unknownTask := TaskStore.find?_only _
  have hafter : claiming.after.find? "" = some taken := TaskStore.find?_only _
  cases Option.some_inj.mp (hafter.symm.trans (hkept.trans hbefore))

end Service

end Gathering
