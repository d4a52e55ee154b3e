import Gathering.Proofs.Scheduler.Visits

/-!
# The ledger of a sweep

Of all that a sweep asks for, some answers decide what it reports: whether it was
called off, what came of each claim, and what came of each settlement. These are
the **marks** that a run leaves (`Turn.mark?`).

The marks of a run are those of the visits that the sweep tells, one visit after
the other (`Scheduler.visits_marks`). An execution leaves none, since it asks for
nothing but the time, events and participants, its sends, and an extension of the
lease on its own task (`Scheduler.Executing`). So what a report says about visits
it says about the calls that were really made (`SweepReport.tally_eq_ofMarks`).

The parts of a sweep are inverted here as well: what a run of each of them can look
like (`VisitRun`, `VisitsRun`, `ChronicleRun`), with what others do in between and
with every answer, also a failure. Proofs about sweeps go by these and do not open
the programs again.
-/

namespace Gathering

variable {σ : Type} {W : Surroundings σ} {st st' : σ} {turns : List (Turn σ)} {s : Scheduler}
  {t task : Task}

/-! ## Executions

What an execution asks for depends on the task and on the answers, and little of it matters for
the store of tasks: only the extension of the lease does, and that of its own task. -/

namespace Scheduler

/-- **What the execution of a task may ask for.** -/
inductive Executing (s : Scheduler) (t : Task) : Effect → Prop
  /-- What time it is. -/
  | now : Executing s t (.request .now)
  /-- Events and participants. -/
  | roster (call : Roster.Call) : Executing s t (.request (.roster call))
  /-- A longer lease on the task. -/
  | extendLease (deadline : Instant) :
      Executing s t (.request (.tasks (.extendLease t.id s.id deadline)))
  /-- Sends. -/
  | fanOut (batch : Batch) : Executing s t (.fanOut batch)

/-- The protocol of an execution. -/
def executing (s : Scheduler) (t : Task) : Protocol Unit where
  allows _ := s.Executing t
  after _ _ _ := ()

theorem renewLease_executing (s : Scheduler) (t : Task) (targets width : Nat) :
    Job.Obeys (s.executing t) (fun _ _ => True) (fun _ _ => True) (s.renewLease t targets width)
      () := by
  unfold renewLease
  refine .lift .now fun now => .tasks (.extendLease _) (fun granted => ?_) fun _ => trivial
  cases granted with
  | true => exact .pure trivial
  | false => exact .throw trivial

theorem reachOut_executing (s : Scheduler) (t : Task) (kind : Outreach) :
    Job.Obeys (s.executing t) (fun _ _ => True) (fun _ _ => True) (s.reachOut t kind) () := by
  unfold reachOut
  refine .roster (.roster _) (fun event? => ?_) fun _ => trivial
  cases event? with
  | none => exact .throw trivial
  | some event =>
    show Job.Obeys _ _ _ (Job.roster (.listParticipants t.eventId) >>= _) ()
    refine .roster (.roster _) (fun participants => ?_) fun _ => trivial
    show Job.Obeys _ _ _ (if (kind.targets participants).isEmpty = true then _ else _) ()
    split
    · exact .pure trivial
    · refine .bind (renewLease_executing s t _ _) fun _ _ _ => .lift (.fanOut _) fun results => ?_
      show Work.Obeys _ _ (Program.done (outcomeOf kind _ results)) ()
      cases outcomeOf kind (kind.targets participants).length results <;> trivial

/-- **An execution asks for nothing that is not allowed.** -/
theorem execute_executing (s : Scheduler) (t : Task) :
    Work.Obeys (s.executing t) (fun _ _ => True) (s.execute t).run () := by
  refine Job.Obeys.run (Q := fun _ => True) ?_
  unfold execute
  cases t.action with
  | confirmation => exact reachOut_executing s t .confirmation
  | reminder => exact reachOut_executing s t .reminder
  | location => exact reachOut_executing s t .location
  | closure => exact Work.Obeys.ask (.roster _) fun answer => by cases answer <;> trivial
  | unknown _ => exact .pure trivial

end Scheduler

/-! ## Settlements

Which call settles a task is decided by the outcome of its execution and by the task as it was
when it was claimed. The three calls differ in what they answer, and so the call is given together
with what its answer means (`settling`). -/

/-- A call of the store of tasks whose answer is looked at. -/
theorem Job.runs_tasks_iff {α : Type} {call : TaskStore.Call} {f : call.Answer → α}
    {r : Except Error α} :
    Work.Runs W st (Job.tasks call >>= fun a => pure (f a) : Job α).run turns r st' ↔
      ∃ st₁ answer, W.meanwhile st st₁ ∧ W.answers st₁ (.request (.tasks call)) answer st' ∧
        turns = [⟨st₁, .request (.tasks call), answer, st'⟩] ∧ r = answer.map f := by
  have hcall : (Job.tasks call >>= fun a => pure (f a) : Job α).run =
      (Program.call (Effect.request (.tasks call)) >>= fun answer =>
        pure (answer.map f) : Work (Except Error α)) := by
    refine congrArg (Program.ask _) (funext fun answer => ?_)
    cases answer <;> rfl
  rw [hcall, Work.runs_call_iff]
  constructor
  · rintro ⟨st₁, answer, st₂, rest, rfl, others, answered, run⟩
    obtain ⟨rfl, rfl, rfl⟩ := Work.runs_pure_iff.mp run
    exact ⟨st₁, answer, others, answered, rfl, rfl⟩
  · rintro ⟨st₁, answer, others, answered, rfl, rfl⟩
    exact ⟨st₁, answer, st', [], rfl, others, answered, .done _ _⟩

namespace Scheduler

/-- **The call that settles a task**, and what its answer means. -/
def settling (s : Scheduler) (t : Task) (now : Instant) :
    Except Error Unit → (call : TaskStore.Call) × (call.Answer → Settlement)
  | .ok () => ⟨.markProcessed t.id s.id now, (ifHappened · .processed)⟩
  | .error e =>
    if e.isFinal || t.isLastAttempt then
      ⟨.markFailed t.id s.id e.message now, (ifHappened · .failed)⟩
    else ⟨.incrementRetries t.id s.id e.message, fun retries => ifHappened retries.isSome .retried⟩

theorem settling_of_last {e : Error} (h : (e.isFinal || t.isLastAttempt) = true) (now : Instant) :
    s.settling t now (.error e) =
      ⟨.markFailed t.id s.id e.message now, (ifHappened · .failed)⟩ :=
  if_pos h

theorem settling_of_left {e : Error} (h : (e.isFinal || t.isLastAttempt) = false) (now : Instant) :
    s.settling t now (.error e) =
      ⟨.incrementRetries t.id s.id e.message,
        fun retries => ifHappened retries.isSome .retried⟩ :=
  if_neg (Bool.eq_false_iff.mp h)

/-- Settling a task is asking for the time and making one call. -/
theorem settle_eq (s : Scheduler) (t : Task) (outcome : Except Error Unit) :
    s.settle t outcome = (do
      let now ← Job.now
      return (s.settling t now outcome).2 (← Job.tasks (s.settling t now outcome).1)) := by
  unfold settle
  refine bind_congr fun now => ?_
  cases outcome with
  | ok _ => rfl
  | error e =>
    show (if (e.isFinal || t.isLastAttempt) = true then _ else _) = _
    split
    · next h => rw [settling_of_last h]
    · next h => rw [settling_of_left (Bool.eq_false_iff.mpr h)]

/-- **A run that settles a task**: the time, and the call. -/
theorem runs_settle {outcome : Except Error Unit} {settled : Except Error Settlement}
    (run : Work.Runs W st (s.settle t outcome).run turns settled st') :
    ∃ st₁ now st₂ st₃ answer, W.meanwhile st st₁ ∧ W.answers st₁ (.request .now) now st₂ ∧
      W.meanwhile st₂ st₃ ∧
      W.answers st₃ (.request (.tasks (s.settling t now outcome).1)) answer st' ∧
      turns = [⟨st₁, .request .now, now, st₂⟩,
        ⟨st₃, .request (.tasks (s.settling t now outcome).1), answer, st'⟩] ∧
      settled = answer.map (s.settling t now outcome).2 := by
  rw [settle_eq] at run
  obtain ⟨st₁, now, st₂, rest, rfl, others, told, run⟩ := Work.runs_call_iff.mp run
  obtain ⟨st₃, answer, others', answered, rfl, rfl⟩ := Job.runs_tasks_iff.mp run
  exact ⟨st₁, now, st₂, st₃, answer, others, told, others', answered, rfl, rfl⟩

/-! ## Visits -/

/-- **What happens when a task is visited**: the time is asked for, and the task is claimed. If the
claim is granted, the task is executed and settled. -/
inductive VisitRun (W : Surroundings σ) (s : Scheduler) (task : Task) :
    σ → List (Turn σ) → Visit → σ → Prop
  /-- The claim was not granted. -/
  | unclaimed {st st₁ st₂ st₃ st' : σ} {now : Instant} {answer : Except Error (Option Task)}
      {v : Visit} (others : W.meanwhile st st₁) (told : W.answers st₁ (.request .now) now st₂)
      (others' : W.meanwhile st₂ st₃)
      (answered : W.answers st₃
        (.request (.tasks (.claim task.id s.id (now.add s.config.claimLease) now))) answer st')
      (visited : (∃ e, answer = .error e ∧ v = .unanswered e) ∨
        answer = .ok none ∧ v = .contended) :
      VisitRun W s task st
        [⟨st₁, .request .now, now, st₂⟩,
          ⟨st₃, .request (.tasks (.claim task.id s.id _ now)), answer, st'⟩]
        v st'
  /-- The claim was granted. -/
  | attempted {st st₁ st₂ st₃ st₄ st₅ st' : σ} {now : Instant} {claimed : Task}
      {outcome : Except Error Unit} {settled : Except Error Settlement} {first last : List (Turn σ)}
      (others : W.meanwhile st st₁) (told : W.answers st₁ (.request .now) now st₂)
      (others' : W.meanwhile st₂ st₃)
      (answered : W.answers st₃
        (.request (.tasks (.claim task.id s.id (now.add s.config.claimLease) now)))
        (.ok (some claimed)) st₄)
      (executed : Work.Runs W st₄ (s.execute claimed).run first outcome st₅)
      (settledRun : Work.Runs W st₅ (s.settle claimed outcome).run last settled st') :
      VisitRun W s task st
        (⟨st₁, .request .now, now, st₂⟩ ::
          ⟨st₃, .request (.tasks (.claim task.id s.id _ now)), .ok (some claimed), st₄⟩ ::
          (first ++ last))
        (.attempted claimed outcome settled) st'

/-- **A visit happens in this way.** -/
theorem runs_visit {v : Visit} (run : Work.Runs W st (s.visit task) turns v st') :
    VisitRun W s task st turns v st' := by
  unfold visit at run
  obtain ⟨st₁, now, st₂, rest, rfl, others, told, run⟩ := Work.runs_call_iff.mp run
  obtain ⟨st₃, answer, st₄, rest, rfl, others', answered, run⟩ := Work.runs_call_iff.mp run
  match answer, answered, run with
  | .error e, answered, run =>
    obtain ⟨rfl, rfl, rfl⟩ := Work.runs_pure_iff.mp run
    exact .unclaimed others told others' answered (.inl ⟨e, rfl, rfl⟩)
  | .ok none, answered, run =>
    obtain ⟨rfl, rfl, rfl⟩ := Work.runs_pure_iff.mp run
    exact .unclaimed others told others' answered (.inr ⟨rfl, rfl⟩)
  | .ok (some claimed), answered, run =>
    obtain ⟨first, rest, outcome, st₅, rfl, executed, run⟩ := Work.runs_bind_iff.mp run
    obtain ⟨last, rest, settled, st₆, rfl, settledRun, run⟩ := Work.runs_bind_iff.mp run
    obtain ⟨rfl, rfl, rfl⟩ := Work.runs_pure_iff.mp run
    rw [List.append_nil]
    exact .attempted others told others' answered executed settledRun

/-- **What happens when tasks are visited** one after the other: each time it is asked whether the
sweep was called off. -/
inductive VisitsRun (W : Surroundings σ) (s : Scheduler) :
    List Task → σ → List (Turn σ) → List Visit → σ → Prop
  /-- No task is left. -/
  | nil (st : σ) : VisitsRun W s [] st [] [] st
  /-- The sweep was called off. -/
  | calledOff {task : Task} {tasks : List Task} {st st₁ st' : σ} (others : W.meanwhile st st₁)
      (told : W.answers st₁ (.request .isCancelled) true st') :
      VisitsRun W s (task :: tasks) st [⟨st₁, .request .isCancelled, true, st'⟩] [] st'
  /-- A task was visited, and then those after it. -/
  | visited {task : Task} {tasks : List Task} {st st₁ st₂ st₃ st' : σ} {v : Visit}
      {vs : List Visit} {first later : List (Turn σ)} (others : W.meanwhile st st₁)
      (told : W.answers st₁ (.request .isCancelled) false st₂)
      (visit : Work.Runs W st₂ (s.visit task) first v st₃)
      (visits : VisitsRun W s tasks st₃ later vs st') :
      VisitsRun W s (task :: tasks) st
        (⟨st₁, .request .isCancelled, false, st₂⟩ :: (first ++ later)) (v :: vs) st'

/-- **Tasks are visited in this way.** -/
theorem runs_visits {tasks : List Task} {vs : List Visit}
    (run : Work.Runs W st (s.visits tasks) turns vs st') : VisitsRun W s tasks st turns vs st' := by
  induction tasks generalizing st turns vs with
  | nil =>
    obtain ⟨rfl, rfl, rfl⟩ := Work.runs_pure_iff.mp run
    exact .nil _
  | cons task tasks ih =>
    obtain ⟨st₁, cancelled, st₂, rest, rfl, others, told, run⟩ := Work.runs_call_iff.mp run
    cases cancelled with
    | true =>
      obtain ⟨rfl, rfl, rfl⟩ := Work.runs_pure_iff.mp run
      exact .calledOff others told
    | false =>
      obtain ⟨first, rest, v, st₃, rfl, visit, run⟩ := Work.runs_bind_iff.mp run
      obtain ⟨later, rest, vs, st₄, rfl, visits, run⟩ := Work.runs_bind_iff.mp run
      obtain ⟨rfl, rfl, rfl⟩ := Work.runs_pure_iff.mp run
      rw [List.append_nil]
      exact .visited others told visit (ih visits)

/-- **What happens when visits are told**: the time is asked for, the tasks that are due are listed,
and they are visited. -/
inductive ChronicleRun (W : Surroundings σ) (s : Scheduler) (limit : Nat) :
    σ → List (Turn σ) → Except Error (List Task × List Visit) → σ → Prop
  /-- The listing failed. -/
  | failed {st st₁ st₂ st₃ st' : σ} {now : Instant} {e : Error} (others : W.meanwhile st st₁)
      (told : W.answers st₁ (.request .now) now st₂) (others' : W.meanwhile st₂ st₃)
      (listed : W.answers st₃ (.request (.tasks (.listDue now limit))) (.error e) st') :
      ChronicleRun W s limit st
        [⟨st₁, .request .now, now, st₂⟩,
          ⟨st₃, .request (.tasks (.listDue now limit)), .error e, st'⟩]
        (.error e) st'
  /-- The tasks were visited. -/
  | visited {st st₁ st₂ st₃ st₄ st' : σ} {now : Instant} {due : List Task} {vs : List Visit}
      {later : List (Turn σ)} (others : W.meanwhile st st₁)
      (told : W.answers st₁ (.request .now) now st₂) (others' : W.meanwhile st₂ st₃)
      (listed : W.answers st₃ (.request (.tasks (.listDue now limit))) (.ok due) st₄)
      (visits : Work.Runs W st₄ (s.visits due) later vs st') :
      ChronicleRun W s limit st
        (⟨st₁, .request .now, now, st₂⟩ ::
          ⟨st₃, .request (.tasks (.listDue now limit)), .ok due, st₄⟩ :: later)
        (.ok (due, vs)) st'

/-- **Visits are told in this way.** -/
theorem runs_chronicle {limit : Nat} {result : Except Error (List Task × List Visit)}
    (run : Work.Runs W st (s.chronicle limit).run turns result st') :
    ChronicleRun W s limit st turns result st' := by
  unfold chronicle at run
  obtain ⟨st₁, now, st₂, rest, rfl, others, told, run⟩ := Work.runs_call_iff.mp run
  obtain ⟨st₃, answer, st₄, rest, rfl, others', listed, run⟩ := Work.runs_call_iff.mp run
  cases answer with
  | error e =>
    obtain ⟨rfl, rfl, rfl⟩ := Work.runs_pure_iff.mp run
    exact .failed others told others' listed
  | ok due =>
    have run : Work.Runs W st₄
        (ExceptT.lift (s.visits due) >>= fun vs => pure (due, vs) : Job _).run rest result st' :=
      run
    rw [ExceptT.run_bind_lift] at run
    obtain ⟨later, rest, vs, st₅, rfl, visits, run⟩ := Work.runs_bind_iff.mp run
    obtain ⟨rfl, rfl, rfl⟩ := Work.runs_pure_iff.mp run
    rw [List.append_nil]
    exact .visited others told others' listed visits

end Scheduler

/-! ## Marks

A mark is what is left of a call when the times and the names of owners are forgotten. The report
can be reckoned from the marks, and the marks can be read off the turns of any run. -/

/-- **What decides the report of a sweep.** -/
inductive Mark where
  /-- The sweep was called off. -/
  | stopped
  /-- A task was claimed, with an answer. -/
  | claim (id : String) (answer : Except Error (Option Task))
  /-- A task was settled, with an answer. -/
  | settle (id : String) (answer : Except Error Settlement)

/-- **The mark that an effect leaves**, if it leaves one. -/
def Turn.mark? : Turn σ → Option Mark
  | ⟨_, .request .isCancelled, true, _⟩ => some .stopped
  | ⟨_, .request (.tasks (.claim id _ _ _)), answer, _⟩ => some (.claim id answer)
  | ⟨_, .request (.tasks (.markProcessed id _ _)), answer, _⟩ =>
    some (.settle id (answer.map (Scheduler.ifHappened · .processed)))
  | ⟨_, .request (.tasks (.incrementRetries id _ _)), answer, _⟩ =>
    some (.settle id (answer.map fun retries => Scheduler.ifHappened retries.isSome .retried))
  | ⟨_, .request (.tasks (.markFailed id _ _ _)), answer, _⟩ =>
    some (.settle id (answer.map (Scheduler.ifHappened · .failed)))
  | _ => none

/-- The marks of a visit to a task. -/
def Visit.marks (id : String) : Visit → List Mark
  | .unanswered e => [.claim id (.error e)]
  | .contended => [.claim id (.ok none)]
  | .attempted claimed _ settled => [.claim id (.ok (some claimed)), .settle claimed.id settled]

/-- **The marks of visits to tasks**, which end early only if the sweep was called off. -/
def Visit.ledger : List Task → List Visit → List Mark
  | [], _ => []
  | _ :: _, [] => [.stopped]
  | task :: tasks, v :: vs => v.marks task.id ++ ledger tasks vs

namespace Scheduler

theorem execute_marks {outcome : Except Error Unit}
    (run : Work.Runs W st (s.execute t).run turns outcome st') :
    turns.filterMap Turn.mark? = [] := by
  refine List.filterMap_eq_nil_iff.mpr fun turn hmem => ?_
  obtain ⟨_, hallows⟩ := run.allowed (execute_executing s t) turn hmem
  obtain ⟨before, effect, answer, after⟩ := turn
  cases hallows <;> rfl

theorem settle_marks {outcome : Except Error Unit} {settled : Except Error Settlement}
    (run : Work.Runs W st (s.settle t outcome).run turns settled st') :
    turns.filterMap Turn.mark? = [.settle t.id settled] := by
  obtain ⟨st₁, now, st₂, st₃, answer, _, _, _, _, rfl, rfl⟩ := runs_settle run
  clear run
  cases outcome with
  | ok _ => rfl
  | error e =>
    revert answer
    cases h : e.isFinal || t.isLastAttempt with
    | true =>
      rw [settling_of_last h]
      exact fun _ _ => rfl
    | false =>
      rw [settling_of_left h]
      exact fun _ _ => rfl

/-- **The marks of a visit are those that it leaves.** -/
theorem visit_marks {v : Visit} (run : Work.Runs W st (s.visit task) turns v st') :
    turns.filterMap Turn.mark? = v.marks task.id := by
  cases runs_visit run with
  | unclaimed _ _ _ _ visited =>
    obtain ⟨e, rfl, rfl⟩ | ⟨rfl, rfl⟩ := visited <;> rfl
  | attempted _ _ _ _ executed settledRun =>
    show Mark.claim task.id _ :: (_ ++ _ : List (Turn σ)).filterMap Turn.mark? = _
    rw [List.filterMap_append, execute_marks executed, settle_marks settledRun]
    rfl

/-- **The marks of a run are the ledger of the visits that it tells**, which are no more than
there are tasks.

By induction on the visits. Asking whether the sweep was called off leaves a mark only if it was,
and then nothing comes after it. -/
theorem visits_marks {tasks : List Task} {vs : List Visit}
    (run : Work.Runs W st (s.visits tasks) turns vs st') :
    turns.filterMap Turn.mark? = Visit.ledger tasks vs ∧ vs.length ≤ tasks.length := by
  replace run := runs_visits run
  induction run with
  | nil => exact ⟨rfl, Nat.le_refl 0⟩
  | calledOff => exact ⟨rfl, Nat.zero_le _⟩
  | @visited task tasks _ _ _ _ _ v vs first later _ _ visit _ ih =>
    obtain ⟨hmarks, hlength⟩ := ih
    refine ⟨?_, Nat.succ_le_succ hlength⟩
    show (first ++ later).filterMap Turn.mark? = v.marks task.id ++ Visit.ledger tasks vs
    rw [List.filterMap_append, visit_marks visit, hmarks]

end Scheduler

end Gathering
