import Gathering.Proofs.Program.Protocol
import Gathering.Scheduler.Sweep

/-!
# How a sweeper behaves

A sweep goes through tasks one after the other, and what it does to a task has
an order: it claims the task, extends the lease at most once and then sends, and
settles the task once. `Standing` says how far a sweeper is in this order, with
what it then knows: the task as it was when it was claimed, what time it was
told, and the deadline that it was given.

`Scheduler.conduct` is the protocol that goes with it, and `sweep_obeys` the fact
about the program of a sweep that everything else uses. Among the rules are

* a claim is made with the time that the sweeper asked for last;
* the lease is extended only once, and only for the task that was claimed;
* sends are made only right after an extension that was granted, and the
  deadline of the extension covers them;
* another attempt is asked for only if the task, as it was claimed, had one left.

The conduct is told by what a sweeper has been answered, not by where in its program
it is. So it can be followed in any run, with others in between, and every sweep of
every scheduler keeps to the same one. What it leaves out is the store: that a claim
was granted is known, but not what the task is by now.
-/

namespace Gathering

/-- **How far a sweeper is with a task.** -/
inductive Standing where
  /-- It holds no task. -/
  | free
  /-- It holds no task and was told the time. -/
  | ready (now : Instant)
  /-- It has claimed a task, and it may have tried to extend the lease. -/
  | holding (task : Task) (renewed : Bool)
  /-- The same, and it was told the time. -/
  | dated (task : Task) (renewed : Bool) (now : Instant)
  /-- Its lease was extended to a deadline, at the time that it was told. -/
  | covered (task : Task) (now deadline : Instant)

namespace Standing

/-- Whether the sweeper holds no task. -/
def isFree : Standing → Bool
  | free | ready _ => true
  | _ => false

/-- Whether the lease was extended and the sends have not ended. -/
def isCovered : Standing → Bool
  | covered _ _ _ => true
  | _ => false

/-- The task that the sweeper holds, as it was when it was claimed. -/
def task? : Standing → Option Task
  | free | ready _ => none
  | holding t _ | dated t _ _ | covered t _ _ => some t

/-- The sweeper is told the time. -/
def told (now : Instant) : Standing → Standing
  | free | ready _ => ready now
  | holding t renewed | dated t renewed _ => dated t renewed now
  | covered t now deadline => covered t now deadline

/-- The lease was extended to a deadline, or not. -/
def renewed (granted : Bool) (deadline : Instant) : Standing → Standing
  | dated t _ now => if granted then covered t now deadline else holding t true
  | st => st

/-- The sends have ended. -/
def sent : Standing → Standing
  | covered t _ _ => holding t true
  | st => st

/-- **Where a sweeper stands after an answer.** -/
def after (st : Standing) : (e : Effect) → e.Answer → Standing
  | .request .now, now => st.told now
  | .request (.tasks (.claim _ _ _ _)), .ok (some t) => holding t false
  | .request (.tasks (.extendLease _ _ deadline)), .ok granted => st.renewed granted deadline
  | .request (.tasks (.extendLease _ _ deadline)), .error _ => st.renewed false deadline
  | .request (.tasks (.markProcessed _ _ _)), _ => free
  | .request (.tasks (.incrementRetries _ _ _)), _ => free
  | .request (.tasks (.markFailed _ _ _ _)), _ => free
  | .fanOut _, _ => st.sent
  | _, _ => st

end Standing

namespace Scheduler

/-- **What a sweeper may ask for**, by its standing. -/
inductive Conduct (s : Scheduler) : Standing → Effect → Prop
  /-- It may always ask what time it is, unless it is about to send. -/
  | now {st : Standing} (h : st.isCovered = false) : Conduct s st (.request .now)
  /-- Between tasks it may ask whether it was called off. -/
  | isCancelled {st : Standing} (h : st.isFree = true) : Conduct s st (.request .isCancelled)
  /-- Between tasks it may ask which tasks are due. -/
  | listDue {st : Standing} {now : Instant} {limit : Nat} (h : st.isFree = true) :
      Conduct s st (.request (.tasks (.listDue now limit)))
  /-- It claims a task under its name, from the time that it was told. -/
  | claim {now : Instant} {id : String} :
      Conduct s (.ready now)
        (.request (.tasks (.claim id s.id (now.add s.config.claimLease) now)))
  /-- It may call the store of events and participants about the task that it holds. -/
  | roster {t : Task} {renewed : Bool} {call : Roster.Call} :
      Conduct s (.holding t renewed) (.request (.roster call))
  /-- It extends its lease once. -/
  | extendLease {t : Task} {now deadline : Instant} :
      Conduct s (.dated t false now) (.request (.tasks (.extendLease t.id s.id deadline)))
  /-- It sends to many if the deadline of its lease covers the sends. -/
  | fanOut {t : Task} {now : Instant} {batch : Batch} (hwidth : 0 < batch.width)
      (hlimit : batch.limit = s.config.sendTimeout) :
      Conduct s
        (.covered t now (now.add (leaseBudget s.config batch.targets.length batch.width)))
        (.fanOut batch)
  /-- It settles the task as processed. -/
  | markProcessed {t : Task} {renewed : Bool} {now : Instant} :
      Conduct s (.dated t renewed now) (.request (.tasks (.markProcessed t.id s.id now)))
  /-- It asks for another attempt, if there was one left. -/
  | incrementRetries {t : Task} {renewed : Bool} {now : Instant} {error : String}
      (h : t.isLastAttempt = false) :
      Conduct s (.dated t renewed now) (.request (.tasks (.incrementRetries t.id s.id error)))
  /-- It settles the task as failed. -/
  | markFailed {t : Task} {renewed : Bool} {now : Instant} {error : String} :
      Conduct s (.dated t renewed now) (.request (.tasks (.markFailed t.id s.id error now)))

/-- **The protocol of a sweeper.** -/
def conduct (s : Scheduler) : Protocol Standing where
  allows := s.Conduct
  after := Standing.after

variable {s : Scheduler}

/-- The sweeper holds a task. -/
def Holds (t : Task) (st : Standing) : Prop := ∃ renewed, st = .holding t renewed

/-- The sweeper holds no task. -/
def HoldsNone (st : Standing) : Prop := st.isFree = true

theorem HoldsNone.isCovered {st : Standing} (h : HoldsNone st) : st.isCovered = false := by
  cases st with
  | covered _ _ _ => cases h
  | _ => rfl

theorem HoldsNone.told {st : Standing} (h : HoldsNone st) (now : Instant) :
    st.told now = .ready now := by
  cases st with
  | free => rfl
  | ready _ => rfl
  | _ => cases h

/-! ## Executing a task

Each part of a sweep is shown to keep to the conduct from the standing in which it begins, and to
end in a standing that the next part begins in: a task is held from its claim until it has been
executed, and none is held once it was settled. -/

/-- The lease is extended once, and the sends that it was extended for may follow. -/
theorem renewLease_obeys (t : Task) (targets width : Nat) :
    Job.Obeys s.conduct
      (fun _ st => ∃ now, st = .covered t now (now.add (leaseBudget s.config targets width)))
      (fun _ => Holds t) (s.renewLease t targets width) (.holding t false) := by
  unfold renewLease
  refine .lift (.now rfl) fun now => ?_
  show Job.Obeys _ _ _ _ (Standing.dated t false now)
  refine .tasks .extendLease (fun granted => ?_) fun e => ?_
  · cases granted with
    | true => exact .pure ⟨now, rfl⟩
    | false => exact .throw ⟨true, rfl⟩
  · exact ⟨true, rfl⟩

/-- Sends that the lease covers leave the sweeper with the task. -/
theorem fanOut_obeys (t : Task) (now : Instant) (batch : Batch) (hwidth : 0 < batch.width)
    (hlimit : batch.limit = s.config.sendTimeout)
    (f : List (Participant × Except Error Unit) → Except Error Unit) :
    Job.Obeys s.conduct (fun _ => Holds t) (fun _ => Holds t)
      (ExceptT.lift (Program.call (Effect.fanOut batch)) >>= fun results => Job.checked (f results))
      (.covered t now (now.add (leaseBudget s.config batch.targets.length batch.width))) := by
  refine .lift (Conduct.fanOut hwidth hlimit) fun results => ?_
  show Work.Obeys _ _ (Program.done (f results)) (Standing.holding t true)
  cases f results with
  | ok _ => exact ⟨true, rfl⟩
  | error e => exact ⟨true, rfl⟩

/-- **An outreach sends only what its lease covers.** -/
theorem reachOut_obeys (t : Task) (kind : Outreach) :
    Job.Obeys s.conduct (fun _ => Holds t) (fun _ => Holds t) (s.reachOut t kind)
      (.holding t false) := by
  have hheld : Holds t (.holding t false) := ⟨false, rfl⟩
  unfold reachOut
  refine .roster .roster (fun event? => ?_) fun e => hheld
  cases event? with
  | none => exact .throw hheld
  | some event =>
    show Job.Obeys _ _ _ (Job.roster (.listParticipants t.eventId) >>= _) (Standing.holding t false)
    refine .roster .roster (fun participants => ?_) fun e => hheld
    show Job.Obeys _ _ _ (if (kind.targets participants).isEmpty = true then _ else _) _
    split
    · exact .pure hheld
    · refine .bind (renewLease_obeys t _ _) ?_
      rintro _ _ ⟨now, rfl⟩
      have hwidth : 0 < max s.config.fanoutConcurrency 1 :=
        Nat.lt_of_lt_of_le Nat.zero_lt_one (Nat.le_max_right _ 1)
      exact fanOut_obeys t now ⟨kind, event, kind.targets participants, _, s.config.sendTimeout⟩
        hwidth rfl (outcomeOf kind (kind.targets participants).length)

/-- Executing a task leaves the sweeper with the task.

An outreach that has nobody to send to, the closing of an event, and a task that nobody knows how
to do extend no lease. -/
theorem execute_obeys (t : Task) :
    Job.Obeys s.conduct (fun _ => Holds t) (fun _ => Holds t) (s.execute t) (.holding t false) := by
  unfold execute
  cases t.action with
  | confirmation => exact reachOut_obeys t .confirmation
  | reminder => exact reachOut_obeys t .reminder
  | location => exact reachOut_obeys t .location
  | closure =>
    refine Work.Obeys.ask .roster fun answer => ?_
    cases answer with
    | ok _ => exact ⟨false, rfl⟩
    | error e => exact ⟨false, rfl⟩
  | unknown _ => exact .pure ⟨false, rfl⟩

/-! ## Settling a task -/

/-- **Settling a task leaves the sweeper without it**, whatever the answer is. -/
theorem settle_obeys (t : Task) (renewed : Bool) (outcome : Except Error Unit) :
    Job.Obeys s.conduct (fun _ => HoldsNone) (fun _ => HoldsNone) (s.settle t outcome)
      (.holding t renewed) := by
  unfold settle
  refine .lift (.now rfl) fun now => ?_
  show Job.Obeys _ _ _ _ (Standing.dated t renewed now)
  cases outcome with
  | ok _ => exact .tasks .markProcessed (fun _ => .pure rfl) fun _ => rfl
  | error e =>
    show Job.Obeys _ _ _ (if (e.isFinal || t.isLastAttempt) = true then _ else _) _
    split
    · exact .tasks .markFailed (fun _ => .pure rfl) fun _ => rfl
    · next h =>
      have hleft : t.isLastAttempt = false := by
        rw [Bool.or_eq_true, not_or] at h
        exact Bool.eq_false_iff.mpr h.2
      exact .tasks (.incrementRetries hleft) (fun _ => .pure rfl) fun _ => rfl

/-! ## Sweeps -/

theorem sweepTask_obeys (report : SweepReport) (t : Task) {st : Standing} (h : HoldsNone st) :
    Work.Obeys s.conduct (fun _ => HoldsNone) (s.sweepTask report t) st := by
  unfold sweepTask
  refine .call (.now h.isCovered) fun now => ?_
  show Work.Obeys _ _ _ (st.told now)
  rw [h.told]
  refine .call .claim fun claimed => ?_
  match claimed with
  | .error _ => exact rfl
  | .ok none => exact rfl
  | .ok (some claimed) =>
    refine .bind (execute_obeys claimed).run fun outcome st' hheld => ?_
    obtain ⟨renewed, rfl⟩ := hheld
    refine .bind (settle_obeys claimed renewed outcome).run fun settled st' hfree => ?_
    cases settled with
    | ok _ => exact hfree
    | error _ => exact hfree

theorem sweepTasks_obeys (report : SweepReport) (tasks : List Task) {st : Standing}
    (h : HoldsNone st) :
    Work.Obeys s.conduct (fun _ => HoldsNone) (s.sweepTasks report tasks) st := by
  induction tasks generalizing report st with
  | nil => exact h
  | cons t tasks ih =>
    refine .call (.isCancelled h) fun cancelled => ?_
    cases cancelled with
    | true => exact h
    | false => exact .bind (sweepTask_obeys report t h) fun report' st' h' => ih report' h'

/-- **A sweep keeps to the conduct of a sweeper**, from one that holds no task to one that holds
none.

By the recursion of the sweep over the tasks that were due: after each of them the sweeper holds
none, also when the claim was not granted and when it was called off. -/
theorem sweep_obeys (limit : Nat) {st : Standing} (h : HoldsNone st) :
    Work.Obeys s.conduct (fun _ => HoldsNone) (s.sweep limit).run st := by
  refine Job.Obeys.run ?_
  unfold sweep
  refine .lift (.now h.isCovered) fun now => ?_
  show Job.Obeys _ _ _ _ (st.told now)
  rw [h.told]
  refine .tasks (.listDue rfl) (fun due => ?_) fun _ => rfl
  exact Work.Obeys.bind (sweepTasks_obeys _ due rfl) fun _ _ hfree => hfree

/-! ## Answers

The same conduct, read the other way: not what may be asked for in a standing, but what a question
and its answer make of the one in which it was asked. Proofs about runs go by this, since of a
step of a run the question and the answer are known. -/

/-- **What an answer makes of a standing**, for each thing that a sweeper may ask for. -/
inductive Turns (s : Scheduler) : Standing → (r : Request) → r.Answer → Standing → Prop
  /-- It is told the time, which it goes by from now on. -/
  | told {st : Standing} (h : st.isCovered = false) (now : Instant) :
      Turns s st .now now (st.told now)
  /-- Between tasks it asks whether it was called off. -/
  | cancelled {st : Standing} (h : st.isFree = true) (answer : Bool) :
      Turns s st .isCancelled answer st
  /-- Between tasks it is told which are due. -/
  | listed {st : Standing} {now : Instant} {limit : Nat} (h : st.isFree = true)
      (answer : Except Error (List Task)) : Turns s st (.tasks (.listDue now limit)) answer st
  /-- Its claim is granted, and it holds the task as the store gave it. -/
  | claimed {now : Instant} {id : String} (t : Task) :
      Turns s (.ready now) (.tasks (.claim id s.id (now.add s.config.claimLease) now))
        (.ok (some t)) (.holding t false)
  /-- Its claim is refused or fails, and it holds none, as before. -/
  | unclaimed {now : Instant} {id : String} (answer : Except Error (Option Task))
      (h : ∀ t, answer ≠ .ok (some t)) :
      Turns s (.ready now) (.tasks (.claim id s.id (now.add s.config.claimLease) now)) answer
        (.ready now)
  /-- It has called the store of events and participants, and still holds the task. -/
  | looked {t : Task} {renewed : Bool} {call : Roster.Call} (answer : Except Error call.Answer) :
      Turns s (.holding t renewed) (.roster call) answer (.holding t renewed)
  /-- Its lease is extended, and it may send. -/
  | extended {t : Task} {now deadline : Instant} :
      Turns s (.dated t false now) (.tasks (.extendLease t.id s.id deadline)) (.ok true)
        (.covered t now deadline)
  /-- Its lease is not extended. It still goes by the task, but may not extend the lease again. -/
  | refused {t : Task} {now deadline : Instant} (answer : Except Error Bool)
      (h : answer ≠ .ok true) :
      Turns s (.dated t false now) (.tasks (.extendLease t.id s.id deadline)) answer
        (.holding t true)
  /-- It has settled the task as processed; whether that was accepted makes no difference. -/
  | processed {t : Task} {renewed : Bool} {now : Instant} (answer : Except Error Bool) :
      Turns s (.dated t renewed now) (.tasks (.markProcessed t.id s.id now)) answer .free
  /-- It has asked for another attempt, if one was left. -/
  | retried {t : Task} {renewed : Bool} {now : Instant} {error : String}
      (h : t.isLastAttempt = false) (answer : Except Error (Option Nat)) :
      Turns s (.dated t renewed now) (.tasks (.incrementRetries t.id s.id error)) answer .free
  /-- It has settled the task as failed. -/
  | failed {t : Task} {renewed : Bool} {now : Instant} {error : String}
      (answer : Except Error Bool) :
      Turns s (.dated t renewed now) (.tasks (.markFailed t.id s.id error now)) answer .free

/-- **Whatever a sweeper may ask for turns its standing.** -/
theorem Conduct.turns {st : Standing} {r : Request} (h : s.Conduct st (.request r))
    (answer : r.Answer) : s.Turns st r answer (st.after (.request r) answer) := by
  cases h with
  | now h => exact .told h answer
  | isCancelled h => exact .cancelled h answer
  | listDue h => exact .listed h answer
  | claim =>
    match answer with
    | .error _ => exact .unclaimed _ (fun _ h => by cases h)
    | .ok none => exact .unclaimed _ (fun _ h => by cases h)
    | .ok (some t) => exact .claimed t
  | roster => exact .looked answer
  | extendLease =>
    match answer with
    | .error _ => exact .refused _ (fun h => by cases h)
    | .ok false => exact .refused _ (fun h => by cases h)
    | .ok true => exact .extended
  | markProcessed => exact .processed answer
  | incrementRetries h => exact .retried h answer
  | markFailed => exact .failed answer

end Scheduler

end Gathering
