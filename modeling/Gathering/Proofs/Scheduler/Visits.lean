import Gathering.Proofs.Program.Run
import Gathering.Scheduler.Sweep

/-!
# What becomes of each task

A sweep forgets what it has done to a task and keeps only its report. Here it is
told in full: a sweep **visits** one due task after the other, and a visit ends
in one of three ways. The claim gets no answer; or others hold the task; or the
task is attempted, which has an outcome, and settled accordingly.

`Scheduler.chronicle` is the sweep that gives its visits, and the sweep is the
chronicle of which only the numbers are kept (`Scheduler.sweep_eq`). So whatever
is asked about single attempts is asked of the chronicle.

The chronicle makes the same calls in the same order, so a run of the one is a run
of the other, turn by turn. What it tells beyond the report is of no use to the
program, which is why the program does not keep it.
-/

namespace Gathering

/-- **What became of a task that was due.** -/
inductive Visit where
  /-- The claim got no answer. -/
  | unanswered (e : Error)
  /-- The task was held by others, or not pending any more. -/
  | contended
  /-- The task was claimed, executed with an outcome, and settled. -/
  | attempted (claimed : Task) (outcome : Except Error Unit) (settled : Except Error Settlement)

/-- Counts a visit. -/
def SweepReport.add (r : SweepReport) : Visit → SweepReport
  | .unanswered _ => r
  | .contended => r.countContended
  | .attempted _ _ (.ok settlement) => r.count settlement
  | .attempted _ _ (.error _) => r

/-- **The report of a sweep**, from the tasks that were due and the visits. -/
def SweepReport.tally (told : List Task × List Visit) : SweepReport :=
  told.2.foldl add { due := told.1.length }

namespace Scheduler

/-- Visits one task. -/
def visit (s : Scheduler) (task : Task) : Work Visit := do
  let now ← Work.now
  match ← Work.request (.tasks (.claim task.id s.id (now.add s.config.claimLease) now)) with
  | .error e => return .unanswered e
  | .ok none => return .contended
  | .ok (some claimed) =>
    let outcome ← (s.execute claimed).run
    let settled ← (s.settle claimed outcome).run
    return .attempted claimed outcome settled

/-- Visits tasks one by one, as long as the sweep is not called off. -/
def visits (s : Scheduler) : List Task → Work (List Visit)
  | [] => return []
  | task :: tasks => do
    if ← Work.isCancelled then return []
    let v ← s.visit task
    let vs ← s.visits tasks
    return v :: vs

/-- **The sweep that tells what it has done**: which tasks were due, and what became of those that
it has come to. -/
def chronicle (s : Scheduler) (limit : Nat) : Job (List Task × List Visit) := do
  let due ← Job.tasks (.listDue (← Job.now) limit)
  let vs ← ExceptT.lift (s.visits due)
  return (due, vs)

/-! ## The sweep is its chronicle, counted -/

theorem sweepTask_eq (s : Scheduler) (r : SweepReport) (task : Task) :
    s.sweepTask r task = r.add <$> s.visit task := by
  unfold sweepTask visit
  simp only [map_bind]
  refine bind_congr fun now => bind_congr fun claimed => ?_
  match claimed with
  | .error _ => rfl
  | .ok none => rfl
  | .ok (some claimed) =>
    simp only [map_bind, map_pure]
    refine bind_congr fun outcome => bind_congr fun settled => ?_
    cases settled <;> rfl

theorem sweepTasks_eq (s : Scheduler) (r : SweepReport) (tasks : List Task) :
    s.sweepTasks r tasks = (·.foldl SweepReport.add r) <$> s.visits tasks := by
  induction tasks generalizing r with
  | nil => rfl
  | cons task tasks ih =>
    unfold sweepTasks visits
    simp only [map_bind]
    refine bind_congr fun cancelled => ?_
    cases cancelled with
    | true => rfl
    | false =>
      simp only [Bool.false_eq_true, if_false, map_bind, map_pure, sweepTask_eq, ih, bind_map_left,
        List.foldl_cons]
      rfl

/-- **A sweep is its chronicle, of which only the numbers are kept.** -/
theorem sweep_eq (s : Scheduler) (limit : Nat) :
    (s.sweep limit).run = Except.map SweepReport.tally <$> (s.chronicle limit).run := by
  refine congrArg (Program.ask _) (funext fun now =>
    congrArg (Program.ask _) (funext fun due => ?_))
  cases due with
  | error e => rfl
  | ok due =>
    show (ExceptT.lift (s.sweepTasks { due := due.length } due) : Job SweepReport).run =
      Except.map SweepReport.tally <$>
        (do let vs ← ExceptT.lift (s.visits due); return (due, vs) : Job _).run
    rw [ExceptT.run_bind_lift, ExceptT.run_lift, sweepTasks_eq, map_bind, ← comp_map,
      ← bind_pure_comp]
    rfl

end Scheduler

end Gathering
