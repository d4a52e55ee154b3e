import Gathering.Proofs.Scheduler.Ledger
import Gathering.Proofs.Scheduler.Single
import Gathering.Proofs.Store.Due

/-!
# What a sweep accounts for

A sweep shares the store of tasks with other sweepers and users, its calls may
fail at any time, and it may be called off at any time. Whatever happens, its
report is an account of its own calls (`Scheduler.sweep_accounts`): every number
in it is the number of calls that were answered in one way, the numbers add up to
the tasks that were due unless something was missed, no task is left out because
of another one, and no other task is touched.

The ledger of the visits says all this about numbers and order, by induction over
the visits. What is left to the store is which task a visit is about, and whether
a refused claim was refused for the reason that is reported.
-/

namespace Gathering

/-! ## Reports and ledgers

Here nothing is said of stores. A report is what is counted of the ledger, and the ledger is a
list with a simple shape: for each visit its claim, and its settlement if there was one. Sums and
order follow from the shape. -/

namespace Mark

/-- Whether a claim was refused. -/
def isRefusal : Mark → Bool
  | claim _ (.ok none) => true
  | _ => false

/-- Whether a task was settled in some way. -/
def settles (settlement : Settlement) : Mark → Bool
  | settle _ (.ok other) => other = settlement
  | _ => false

/-- **Whether something was missed**: a claim or a settlement that got no answer, a settlement that
was refused, or the rest of the tasks when the sweep was called off. -/
def isMiss : Mark → Bool
  | stopped | claim _ (.error _) | settle _ (.error _) | settle _ (.ok .lost) => true
  | _ => false

/-- The task that was claimed, whatever the answer was. -/
def claimed? : Mark → Option String
  | claim id _ => some id
  | _ => none

end Mark

/-- The task that was executed in a visit. -/
def Visit.executed? : Visit → Option String
  | .attempted claimed _ _ => some claimed.id
  | _ => none

namespace SweepReport

/-- **The report that counts marks.** -/
def ofMarks (due : Nat) (marks : List Mark) : SweepReport where
  due := due
  contended := marks.countP (·.isRefusal)
  processed := marks.countP (·.settles .processed)
  retried := marks.countP (·.settles .retried)
  failed := marks.countP (·.settles .failed)

/-- How many tasks are accounted for. -/
def total (r : SweepReport) : Nat := r.contended + r.processed + r.retried + r.failed

/-- Counting a visit is counting its marks. -/
theorem add_ofMarks (due : Nat) (marks : List Mark) (id : String) (v : Visit) :
    (ofMarks due marks).add v = ofMarks due (marks ++ v.marks id) := by
  match v with
  | .unanswered _ => simp [add, ofMarks, Visit.marks, Mark.isRefusal, Mark.settles]
  | .contended => simp [add, ofMarks, countContended, Visit.marks, Mark.isRefusal, Mark.settles]
  | .attempted _ _ (.error _) => simp [add, ofMarks, Visit.marks, Mark.isRefusal, Mark.settles]
  | .attempted _ _ (.ok settlement) =>
    cases settlement <;> simp [add, ofMarks, count, Visit.marks, Mark.isRefusal, Mark.settles]

theorem ofMarks_append_stopped (due : Nat) (marks : List Mark) :
    ofMarks due (marks ++ [.stopped]) = ofMarks due marks := by
  simp [ofMarks, Mark.isRefusal, Mark.settles]

/-- **A report counts the ledger of its visits.** -/
theorem tally_eq_ofMarks {due : List Task} {vs : List Visit} (h : vs.length ≤ due.length) :
    tally (due, vs) = ofMarks due.length (Visit.ledger due vs) := by
  have hfold (n : Nat) (marks : List Mark) :
      vs.foldl add (ofMarks n marks) = ofMarks n (marks ++ Visit.ledger due vs) := by
    induction due generalizing vs marks with
    | nil =>
      obtain rfl := List.eq_nil_of_length_eq_zero (Nat.le_zero.mp h)
      rw [Visit.ledger, List.append_nil]
      rfl
    | cons task due ih =>
      cases vs with
      | nil => exact (ofMarks_append_stopped n marks).symm
      | cons v vs =>
        rw [List.foldl_cons, add_ofMarks n marks task.id v, ih (Nat.le_of_succ_le_succ h),
          Visit.ledger, List.append_assoc]
  exact hfold due.length []

end SweepReport

namespace Visit

variable {due : List Task} {vs : List Visit}

/-- **Tasks are claimed in their order**, as many as are visited. -/
theorem claimed_ledger (due : List Task) (vs : List Visit) :
    (ledger due vs).filterMap Mark.claimed? = (due.map (·.id)).take vs.length := by
  induction due generalizing vs with
  | nil => simp [ledger]
  | cons task due ih =>
    cases vs with
    | nil => rfl
    | cons v vs =>
      have hfirst : (v.marks task.id).filterMap Mark.claimed? = [task.id] := by cases v <;> rfl
      rw [ledger, List.filterMap_append, hfirst, ih]
      rfl

/-- **Visits end early exactly if the sweep was called off.** -/
theorem stopped_mem_ledger_iff (h : vs.length ≤ due.length) :
    Mark.stopped ∈ ledger due vs ↔ vs.length < due.length := by
  induction due generalizing vs with
  | nil => simp [ledger]
  | cons task due ih =>
    cases vs with
    | nil => simp [ledger]
    | cons v vs =>
      have hfirst : Mark.stopped ∉ v.marks task.id := by cases v <;> simp [marks]
      rw [ledger, List.mem_append, ih (Nat.le_of_succ_le_succ h), List.length_cons,
        List.length_cons, Nat.succ_lt_succ_iff]
      exact or_iff_right hfirst

/-- **What is accounted for adds up to the tasks that were due exactly if nothing was missed.**

Each visit is counted once, unless its claim or its settlement has got no answer or the settlement
was refused. Tasks that were not visited are not counted either, and then the ledger ends with the
mark that the sweep was called off. -/
theorem total_ledger (h : vs.length ≤ due.length) (n : Nat) :
    (SweepReport.ofMarks n (ledger due vs)).total ≤ due.length ∧
      ((SweepReport.ofMarks n (ledger due vs)).total = due.length ↔
        ∀ m ∈ ledger due vs, m.isMiss = false) := by
  induction due generalizing vs with
  | nil =>
    obtain rfl := List.eq_nil_of_length_eq_zero (Nat.le_zero.mp h)
    simp [ledger, SweepReport.ofMarks, SweepReport.total]
  | cons task due ih =>
    cases vs with
    | nil =>
      simp [ledger, SweepReport.ofMarks, SweepReport.total, Mark.isRefusal, Mark.settles,
        Mark.isMiss]
    | cons v vs =>
      obtain ⟨hle, heq⟩ := ih (Nat.le_of_succ_le_succ h)
      -- the visit is counted once, or it has missed something
      have hfirst : ((v.marks task.id).any (·.isMiss) = false ∧
            (SweepReport.ofMarks n (v.marks task.id)).total = 1) ∨
          ((v.marks task.id).any (·.isMiss) = true ∧
            (SweepReport.ofMarks n (v.marks task.id)).total = 0) := by
        match v with
        | .unanswered _ => exact .inr ⟨rfl, rfl⟩
        | .contended => exact .inl ⟨rfl, rfl⟩
        | .attempted _ _ (.error _) => exact .inr ⟨rfl, rfl⟩
        | .attempted _ _ (.ok settlement) =>
          cases settlement with
          | lost => exact .inr ⟨rfl, rfl⟩
          | _ => exact .inl ⟨rfl, rfl⟩
      have htotal : (SweepReport.ofMarks n (ledger (task :: due) (v :: vs))).total =
          (SweepReport.ofMarks n (v.marks task.id)).total +
            (SweepReport.ofMarks n (ledger due vs)).total := by
        simp only [SweepReport.ofMarks, SweepReport.total, ledger, List.countP_append]
        omega
      rw [htotal, ledger, List.length_cons, List.forall_mem_append, ← heq]
      rcases hfirst with ⟨hmiss, hone⟩ | ⟨hmiss, hzero⟩
      · rw [hone]
        have hnone := List.any_eq_false.mp hmiss
        exact ⟨by omega, fun h => ⟨fun m hm => Bool.eq_false_iff.mpr (hnone m hm), by omega⟩,
          fun h => by omega⟩
      · rw [hzero]
        obtain ⟨m, hm, htrue⟩ := List.any_eq_true.mp hmiss
        refine ⟨by omega, fun h => by omega, fun h => ?_⟩
        rw [h.1 m hm] at htrue
        cases htrue

end Visit

/-! ## Sweeps of a shared store

With others in between, a task may be gone or changed by the time it is visited. But a store files
its tasks under their identifiers, whatever is called, and so a claim gives the task that it was
about or none. -/

namespace Scheduler

open TaskStore (shared History IsFiled)

variable {mayFail : Prop} {others : TaskStore.Entry → Prop} {s : Scheduler} {task : Task}
  {s₁ s₂ : TaskStore} {turns : List (Turn TaskStore)}

theorem Executing.subject? {e : Effect} (h : s.Executing task e) :
    e.subject? = none ∨ e.subject? = some task.id := by
  cases h with
  | extendLease _ => exact .inr rfl
  | _ => exact .inl rfl

theorem subject?_settling (s : Scheduler) (t : Task) (now : Instant)
    (outcome : Except Error Unit) : (s.settling t now outcome).1.subject? = some t.id := by
  cases outcome with
  | ok _ => rfl
  | error e =>
    cases h : e.isFinal || t.isLastAttempt with
    | true => rw [settling_of_last h]; rfl
    | false => rw [settling_of_left h]; rfl

/-- The task that a claim gives is the one that was claimed. -/
theorem id_of_claimed {x owner : String} {deadline now : Instant} {claimed : Task}
    (hfiled : IsFiled s₁) (h : TaskStore.Answers mayFail s₁
      (.request (.tasks (.claim x owner deadline now))) (.ok (some claimed)) s₂) :
    claimed.id = x := by
  obtain ⟨at_, hmoves⟩ := h.moves x
  generalize hrow : s₁.find? x = row at hmoves
  generalize s₂.find? x = row' at hmoves
  cases hmoves with
  | kept h => simp [TaskStore.Entry.changes] at h
  | claimed h =>
    obtain ⟨_, rfl⟩ := Task.claim?_eq_some_iff.mp h
    have hid := hfiled x _ hrow
    exact hid

/-- **A visit is about its task**: this is the one that is executed, and no other one is changed. -/
theorem visit_subject {v : Visit} (hfiled : IsFiled s₁)
    (run : Work.Runs (shared mayFail others) s₁ (s.visit task) turns v s₂) :
    (∀ x, v.executed? = some x → x = task.id) ∧
      ∀ turn ∈ turns, ∀ x, turn.effect.subject? = some x → x = task.id := by
  cases runs_visit run with
  | unclaimed _ _ _ _ visited =>
    refine ⟨?_, ?_⟩
    · obtain ⟨e, _, rfl⟩ | ⟨_, rfl⟩ := visited <;> exact fun _ h => by cases h
    · simp [Effect.subject?, TaskStore.Call.subject?, eq_comm]
  | attempted others told others' answered executed settledRun =>
    have hfiled₃ := ((hfiled.meanwhile others).answers told).meanwhile others'
    have hid := id_of_claimed hfiled₃ answered
    refine ⟨fun x hx => (Option.some_inj.mp hx).symm.trans hid, ?_⟩
    refine List.forall_mem_cons.mpr ⟨fun x hx => (by cases hx), ?_⟩
    refine List.forall_mem_cons.mpr ⟨fun x hx => (Option.some_inj.mp hx).symm, ?_⟩
    refine List.forall_mem_append.mpr ⟨fun turn hmem x hx => ?_, fun turn hmem x hx => ?_⟩
    · obtain ⟨_, hallows⟩ := executed.allowed (execute_executing s _) turn hmem
      rcases hallows.subject? with h | h
      · rw [h] at hx
        cases hx
      · exact (Option.some_inj.mp (hx.symm.trans h)).trans hid
    · obtain ⟨_, _, _, _, _, _, _, _, _, rfl, _⟩ := runs_settle settledRun
      rcases List.mem_cons.mp hmem with rfl | hmem
      · cases hx
      · obtain rfl := List.mem_singleton.mp hmem
        exact (Option.some_inj.mp (hx.symm.trans (subject?_settling s _ _ _))).trans hid

/-- **Visits are about their tasks**: these are executed, in their order and none twice, and no
other task is changed.

By induction on the visits. The store stays filed in between, so every visit is about the task
that it was made for. -/
theorem visits_subject {tasks : List Task} {vs : List Visit} (hfiled : IsFiled s₁)
    (run : Work.Runs (shared mayFail others) s₁ (s.visits tasks) turns vs s₂) :
    (vs.filterMap Visit.executed?).Sublist (tasks.map (·.id)) ∧
      ∀ turn ∈ turns, ∀ x, turn.effect.subject? = some x → x ∈ tasks.map (·.id) := by
  replace run := runs_visits run
  induction run with
  | nil => exact ⟨.slnil, fun _ h => by cases h⟩
  | calledOff =>
    exact ⟨List.nil_sublist _, List.forall_mem_singleton.mpr nofun⟩
  | @visited task _ _ _ _ _ _ v _ _ _ others told visit _ ih =>
    have hfiled' := (hfiled.meanwhile others).answers told
    obtain ⟨hexecuted, hsubject⟩ := visit_subject hfiled' visit
    obtain ⟨hexecuted', hsubject'⟩ := ih (hfiled'.runs visit)
    refine ⟨?_, List.forall_mem_cons.mpr ⟨nofun, List.forall_mem_append.mpr
      ⟨fun turn hmem x hx => ?_, fun turn hmem x hx => ?_⟩⟩⟩
    · rw [List.filterMap_cons]
      cases hv : v.executed? with
      | none => exact hexecuted'.cons task.id
      | some x =>
        rw [hexecuted x hv]
        exact hexecuted'.cons_cons task.id
    · rw [hsubject turn hmem x hx]
      exact List.mem_cons_self
    · exact List.mem_cons_of_mem _ (hsubject' turn hmem x hx)

end Scheduler

/-- **Whether a claim has found its task held or no longer pending**: the store has answered it, and
the task that it was about could not be claimed at the time that was given. -/
def Turn.findsHeld : Turn TaskStore → Bool
  | ⟨st, .request (.tasks (.claim id _ _ at_)), .ok _, _⟩ =>
    (st.find? id).any fun t => !t.isClaimable at_
  | _ => false

/-- **A claim is refused for the reason that the task is held or no longer pending.**

A claim that fails is not a refusal, and the claim of a missing task fails. Any other claim that
was answered was granted exactly if the task could be claimed at the time that was given. -/
theorem Turn.findsHeld_eq {mayFail : Prop} {turn : Turn TaskStore}
    (h : TaskStore.Answers mayFail turn.before turn.effect turn.answer turn.after) :
    turn.findsHeld = (turn.mark?.map (·.isRefusal)).getD false := by
  obtain ⟨st, effect, answer, st'⟩ := turn
  cases effect with
  | request r =>
    cases r with
    | tasks call =>
      cases call with
      | claim id owner deadline at_ =>
        cases answer with
        | error e => rfl
        | ok answer =>
          obtain ⟨now, hanswer, -⟩ := h.eq_respond_of_ok
          have hrefused : answer = none ↔
              ∃ t, st.find? id = some t ∧ t.isClaimable at_ = false := by
            have hiff := @TaskStore.claim_refused_iff st id now at_ deadline owner
            rwa [← hanswer, Except.ok.injEq] at hiff
          clear hanswer
          rw [Bool.eq_iff_iff]
          cases answer <;> simp_all [findsHeld, mark?, Mark.isRefusal, Option.any_eq_true]
      | _ => rfl
    | isCancelled => cases answer <;> rfl
    | _ => rfl
  | _ => rfl

/-- **What a report accounts for**, with the tasks that were due, the visits and the calls that
were made.

The tasks are looked up in what the store held when they were listed, and whether a task was held
is looked up when its claim is made. Nothing is said of the store as it was at any other time,
since others may have changed it. -/
structure SweepReport.Accounts (limit : Nat) (due : List Task) (visits : List Visit)
    (turns : List (Turn TaskStore)) (report : SweepReport) : Prop where
  /-- The tasks that were due are those that the store has listed. -/
  listed : ∃ turn ∈ turns, ∃ now, turn.effect = .request (.tasks (.listDue now limit)) ∧
    due = turn.before.due now limit
  /-- The report says how many they were. -/
  due_eq : report.due = due.length
  /-- They are at most as many as were asked for. -/
  due_le : due.length ≤ limit
  /-- They are in the order of time and identifier. -/
  ordered : due.Pairwise Task.Precedes
  /-- None is listed twice. -/
  nodup : (due.map (·.id)).Nodup
  /-- The first of them are claimed, each once and in this order. -/
  claimed : (turns.filterMap Turn.mark?).filterMap Mark.claimed? =
    (due.map (·.id)).take visits.length
  /-- All of them are claimed, unless the sweep was called off. -/
  stopped : visits.length < due.length ↔ Mark.stopped ∈ turns.filterMap Turn.mark?
  /-- Those that are executed are executed once and in this order. -/
  executed : (visits.filterMap Visit.executed?).Sublist (due.map (·.id))
  /-- Those are contended that were found held, or no longer pending, when they were claimed. -/
  contended : report.contended = turns.countP Turn.findsHeld
  /-- Those are processed that the sweep itself has settled as processed. -/
  processed : report.processed = (turns.filterMap Turn.mark?).countP (·.settles .processed)
  /-- Those are retried that the sweep itself has settled for another attempt. -/
  retried : report.retried = (turns.filterMap Turn.mark?).countP (·.settles .retried)
  /-- Those have failed that the sweep itself has settled as failed. -/
  failed : report.failed = (turns.filterMap Turn.mark?).countP (·.settles .failed)
  /-- No more tasks are accounted for than were due. -/
  total_le : report.total ≤ report.due
  /-- All are accounted for exactly if nothing was missed. -/
  total_eq : report.total = report.due ↔ ∀ m ∈ turns.filterMap Turn.mark?, m.isMiss = false
  /-- The sweep has changed none but those that were due. -/
  others : ∀ turn ∈ turns, ∀ x ∉ due.map (·.id), turn.after.find? x = turn.before.find? x

/-- **The report of visits accounts for the calls that they were made of**, if these are the calls
of the ledger, about tasks that a filed store has listed. -/
theorem SweepReport.accounts_tally {mayFail : Prop} {limit : Nat} {due : List Task}
    {visits : List Visit} {turns : List (Turn TaskStore)} {turn : Turn TaskStore} {now : Instant}
    (hanswered : ∀ turn ∈ turns,
      TaskStore.Answers mayFail turn.before turn.effect turn.answer turn.after)
    (hturn : turn ∈ turns) (hfiled : turn.before.IsFiled)
    (heffect : turn.effect = .request (.tasks (.listDue now limit)))
    (hdue : due = turn.before.due now limit)
    (hledger : turns.filterMap Turn.mark? = Visit.ledger due visits)
    (hlength : visits.length ≤ due.length)
    (hexecuted : (visits.filterMap Visit.executed?).Sublist (due.map (·.id)))
    (hsubjects : ∀ turn ∈ turns, ∀ x, turn.effect.subject? = some x → x ∈ due.map (·.id)) :
    (tally (due, visits)).Accounts limit due visits turns := by
  have hcontended : turns.countP Turn.findsHeld =
      (turns.filterMap Turn.mark?).countP (·.isRefusal) := by
    rw [List.countP_filterMap]
    exact List.countP_congr fun turn hmem => by rw [Turn.findsHeld_eq (hanswered turn hmem)]
  obtain ⟨htotal_le, htotal_eq⟩ := Visit.total_ledger hlength due.length
  rw [tally_eq_ofMarks hlength]
  exact
    { listed := ⟨turn, hturn, now, heffect, hdue⟩
      due_eq := rfl
      due_le := hdue ▸ turn.before.length_due_le now limit
      ordered := hdue ▸ hfiled.pairwise_due now limit
      nodup := hdue ▸ hfiled.nodup_due now limit
      claimed := hledger ▸ Visit.claimed_ledger due visits
      stopped := hledger ▸ (Visit.stopped_mem_ledger_iff hlength).symm
      executed := hexecuted
      contended := by rw [hcontended, hledger]; rfl
      processed := by rw [hledger]; rfl
      retried := by rw [hledger]; rfl
      failed := by rw [hledger]; rfl
      total_le := htotal_le
      total_eq := by rw [hledger]; exact htotal_eq
      others := fun turn hmem x hx =>
        (hanswered turn hmem).find?_of_ne fun h => hx (hsubjects turn hmem x h) }

namespace Scheduler

open TaskStore (shared History isFiled_empty)

/-- **Every sweep accounts for what it has done**: from any store that calls have led to, whatever
others do in between, whichever calls fail and whenever it is called off.

The run is one of the chronicle as well, which tells the visits. Its marks are the ledger of the
visits (`visits_marks`), and what the ledger counts is the report (`SweepReport.accounts_tally`).
That others may come in between is of no consequence for a ledger of one's own calls. -/
theorem sweep_accounts {s : Scheduler} {limit : Nat} {before : List TaskStore.Entry}
    {s₁ s₂ : TaskStore} {turns : List (Turn TaskStore)} {report : SweepReport}
    (reached : History .empty before s₁)
    (run : Work.Runs (shared True fun _ => True) s₁ (s.sweep limit).run turns (.ok report) s₂) :
    ∃ due visits,
      Work.Runs (shared True fun _ => True) s₁ (s.chronicle limit).run turns
          (.ok (due, visits)) s₂ ∧
        report.Accounts limit due visits turns := by
  have hanswered := run.answered
  rw [sweep_eq, Work.runs_map_iff] at run
  obtain ⟨told, hreport, run⟩ := run
  cases told with
  | error e => cases hreport
  | ok told =>
    obtain ⟨due, visits⟩ := told
    obtain rfl := Except.ok.inj hreport
    refine ⟨due, visits, run, ?_⟩
    cases runs_chronicle run with
    | visited others told others' listed visits =>
      have hfiled :=
        (((reached.isFiled isFiled_empty).meanwhile others).answers told).meanwhile others'
      obtain ⟨_, hdue, -⟩ := listed.eq_respond_of_ok
      obtain ⟨hmarks, hlength⟩ := visits_marks visits
      obtain ⟨hexecuted, hsubject⟩ := visits_subject (hfiled.answers listed) visits
      refine SweepReport.accounts_tally hanswered (List.mem_cons_of_mem _ List.mem_cons_self) hfiled
        rfl (Except.ok.inj hdue) hmarks hlength hexecuted ?_
      -- asking for the time and listing tasks changes none
      exact List.forall_mem_cons.mpr ⟨fun x (hx : none = some x) => (by cases hx),
        List.forall_mem_cons.mpr ⟨fun x (hx : none = some x) => (by cases hx), hsubject⟩⟩

/-- A sweeper with the settings that hold by default. -/
def defaultSweeper : Scheduler := ⟨"sweeper", {}⟩

/-- Two sweeps over one task: its first attempt fails for a transient reason, and its second one
succeeds. Both reports account for what was done, and what the first one has left was reached by
calls, as the second one asks for. -/
theorem sweep_accounts_of_retried :
    ∃ t t' before turns turns' due due' visits visits',
      History .empty [⟨.epoch, .insert t, .ok ()⟩] (.only t) ∧
      SweepReport.Accounts 1 due visits turns { due := 1, retried := 1 } ∧
      t'.retries = 1 ∧ History .empty before (.only t') ∧
      SweepReport.Accounts 1 due' visits' turns' { due := 1, processed := 1 } := by
  let t := closureDraft.toTask ⟨.closure, .first, 2⟩ "task" .epoch
  let claimed := defaultSweeper.claimed t .epoch
  let t' := failedOnce claimed .epoch
  have hclaimable : t.isClaimable .epoch = true := rfl
  have hreached : History .empty [⟨.epoch, .insert t, .ok ()⟩] (.only t) := .single rfl
  have hretried : Work.Reaches (shared True fun _ => True) (.only t) (defaultSweeper.sweep 1).run
      (.ok { due := 1, retried := 1 }) (.only t') :=
    reaches_sweep_retried rfl (Instant.first_le_self .epoch) hclaimable rfl
  obtain ⟨turns, run⟩ := hretried
  obtain ⟨due, visits, _, haccounts⟩ := sweep_accounts hreached run
  -- the calls of the first sweep by which the store was changed
  have hclaim := respond_claim_claimed (s := defaultSweeper) hclaimable
  have hretry : (TaskStore.only claimed).respond .epoch
      (.incrementRetries t.id defaultSweeper.id unanswered.message) = (.ok (some 1), .only t') :=
    respond_incrementRetries_only (isSettleableBy_claimed hclaimable)
  have hreached' := (hreached.append (.of_respond hclaim)).append (.of_respond hretry)
  have hprocessed : Work.Reaches (shared True fun _ => True) (.only t')
      (defaultSweeper.sweep 1).run (.ok { due := 1, processed := 1 })
      (.only ((defaultSweeper.claimed t' .epoch).finish .processed none .epoch)) :=
    reaches_sweep_processed rfl (Instant.first_le_self .epoch) rfl
  obtain ⟨turns', run'⟩ := hprocessed
  obtain ⟨due', visits', _, haccounts'⟩ := sweep_accounts hreached' run'
  exact ⟨t, t', _, turns, turns', due, due', visits, visits', hreached, haccounts, rfl, hreached',
    haccounts'⟩

end Scheduler

end Gathering
