import Gathering.Proofs.Program.Protocol
import Gathering.Proofs.Scheduler.Cancellation

/-!
# A sweep heeds its token

A sweep asks whether it was called off before each claim, and at no other time. To be
told that it was not is **leave** to make one claim; the claim uses the leave up,
whatever the answer is, and what is done afterwards is done to the task that was
granted (`Scheduler.sweep_heeds`).

So a sweep that is called off can have leave for one more claim at most: if it was
called off after it had asked. It does not ask twice before a claim, so a token that
is cancelled in between goes unnoticed.
-/

namespace Gathering

/-- The task that an effect claims. -/
def Effect.claims? : Effect → Option String
  | .request (.tasks (.claim id _ _ _)) => some id
  | _ => none

/-- What a sweep was told when it asked whether it was called off. -/
def Answered.token? : Answered → Option Bool
  | ⟨.request .isCancelled, cancelled⟩ => some cancelled
  | _ => none

/-- **Leave to claim a task.** -/
inductive Leave where
  /-- There is none. -/
  | none
  /-- The sweep was not called off when it asked last, and has made no claim since. -/
  | given
  /-- The last claim was granted, and gave the task of an identifier. -/
  | used (id : String)

namespace Leave

/-- What becomes of the leave with an answer. -/
def after (leave : Leave) : (e : Effect) → e.Answer → Leave
  | .request .isCancelled, cancelled => if cancelled then none else given
  | .request (.tasks (.claim _ _ _ _)), .ok (some t) => used t.id
  | .request (.tasks (.claim _ _ _ _)), _ => none
  | _, _ => leave

/-- How many claims there is leave for. -/
def left : Leave → Nat
  | given => 1
  | none | used _ => 0

/-- The leave stays as it is, unless the sweep asks for its token or makes a claim. -/
theorem after_eq {leave : Leave} {e : Effect} {answer : e.Answer} (hclaim : e.claims? = .none)
    (htoken : Answered.token? ⟨e, answer⟩ = .none) : leave.after e answer = leave := by
  unfold after
  split
  · cases htoken
  · cases hclaim
  · cases hclaim
  · rfl

end Leave

/-- **What a sweep may ask for**, by its leave. -/
inductive Heeding : Leave → Effect → Prop
  /-- It makes a claim, if it has leave. -/
  | claim {id owner : String} {deadline now : Instant} :
      Heeding .given (.request (.tasks (.claim id owner deadline now)))
  /-- It changes the task that it was granted. -/
  | granted {id : String} {e : Effect} (hsubject : e.subject? = some id)
      (hclaim : e.claims? = none) : Heeding (.used id) e
  /-- It asks for what changes no task. -/
  | elsewhere {leave : Leave} {e : Effect} (h : e.subject? = none) : Heeding leave e

/-- **The protocol of a sweep that heeds its token.** -/
def heeding : Protocol Leave where
  allows := Heeding
  after := Leave.after

namespace Scheduler

/-! ## Sweeps

The leave is followed through the parts of a sweep, as its standing is elsewhere. Here it is
enough to know of an execution and of a settlement that they tend to one task. -/

variable {s : Scheduler}

/-- The sweep goes on with the task that it was granted. -/
abbrev Tends {α : Type} (t : Task) (j : Job α) : Prop :=
  j.Obeys heeding (fun _ leave => leave = .used t.id) (fun _ leave => leave = .used t.id)
    (.used t.id)

theorem renewLease_tends (t : Task) (targets width : Nat) :
    Tends t (s.renewLease t targets width) := by
  unfold renewLease
  refine .lift (.elsewhere rfl) fun now => ?_
  refine .tasks (.granted rfl rfl) (fun granted => ?_) fun _ => rfl
  cases granted with
  | true => exact .pure rfl
  | false => exact .throw rfl

theorem reachOut_tends (t : Task) (kind : Outreach) : Tends t (s.reachOut t kind) := by
  unfold reachOut
  refine .roster (.elsewhere rfl) (fun event => ?_) fun _ => rfl
  refine .found (fun event _ => ?_) fun _ => rfl
  refine .roster (.elsewhere rfl) (fun participants => ?_) fun _ => rfl
  dsimp only
  split
  · exact .pure rfl
  · refine .bind (renewLease_tends t _ _) ?_
    rintro _ _ rfl
    refine .lift (.elsewhere rfl) fun results => ?_
    cases outcomeOf kind (kind.targets participants).length results with
    | ok _ => exact rfl
    | error _ => exact rfl

theorem execute_tends (t : Task) : Tends t (s.execute t) := by
  unfold execute
  cases t.action with
  | confirmation => exact reachOut_tends t .confirmation
  | reminder => exact reachOut_tends t .reminder
  | location => exact reachOut_tends t .location
  | closure =>
    refine Work.Obeys.ask (.elsewhere rfl) fun answer => ?_
    cases answer with
    | ok _ => exact rfl
    | error _ => exact rfl
  | unknown _ => exact .pure rfl

theorem settle_tends (t : Task) (outcome : Except Error Unit) : Tends t (s.settle t outcome) := by
  unfold settle
  refine .lift (.elsewhere rfl) fun now => ?_
  cases outcome with
  | ok _ => exact .tasks (.granted rfl rfl) (fun _ => .pure rfl) fun _ => rfl
  | error e =>
    dsimp only
    split
    · exact .tasks (.granted rfl rfl) (fun _ => .pure rfl) fun _ => rfl
    · exact .tasks (.granted rfl rfl) (fun _ => .pure rfl) fun _ => rfl

/-- The sweep has no leave to make a claim. -/
def HasNoLeave (leave : Leave) : Prop := leave ≠ .given

/-- Going through one task uses the leave up. -/
theorem sweepTask_heeds (report : SweepReport) (t : Task) :
    Work.Obeys heeding (fun _ => HasNoLeave) (s.sweepTask report t) .given := by
  unfold sweepTask
  refine .call (.elsewhere rfl) fun now => .call .claim fun claimed => ?_
  match claimed with
  | .error _ => exact fun h => by cases h
  | .ok none => exact fun h => by cases h
  | .ok (some claimed) =>
    refine .bind (execute_tends claimed).run ?_
    rintro outcome _ rfl
    refine .bind (settle_tends claimed outcome).run ?_
    rintro settled _ rfl
    cases settled with
    | ok _ => exact fun h => by cases h
    | error _ => exact fun h => by cases h

/-- Going through tasks takes leave for each of them. -/
theorem sweepTasks_heeds (report : SweepReport) (tasks : List Task) {leave : Leave}
    (h : HasNoLeave leave) :
    Work.Obeys heeding (fun _ => HasNoLeave) (s.sweepTasks report tasks) leave := by
  induction tasks generalizing report leave with
  | nil => exact h
  | cons t tasks ih =>
    refine .call (.elsewhere rfl) fun cancelled => ?_
    cases cancelled with
    | true => exact fun h => by cases h
    | false => exact .bind (sweepTask_heeds report t) fun report' _ h' => ih report' h'

/-- **A sweep heeds its token.**

It begins and ends without leave to make a claim, and in between every claim comes right after the
answer that it was not called off. -/
theorem sweep_heeds (limit : Nat) {leave : Leave} (h : HasNoLeave leave) :
    Work.Obeys heeding (fun _ => HasNoLeave) (s.sweep limit).run leave := by
  refine Job.Obeys.run ?_
  unfold sweep
  refine .lift (.elsewhere rfl) fun now => .tasks (.elsewhere rfl) (fun due => ?_) fun _ => h
  exact Work.Obeys.bind (sweepTasks_heeds _ due h) fun _ _ h' => h'

end Scheduler

/-! ## One answer

What one effect of such a sweep does to the leave and to the store. The lemmas below are put
together along a run where services are looked at. -/

theorem Answered.eq_of_token? {d : Answered} {cancelled : Bool} (h : d.token? = some cancelled) :
    d = ⟨.request .isCancelled, cancelled⟩ := by
  unfold token? at h
  split at h
  · cases h
    rfl
  · cases h

theorem Effect.claims?_eq_none {e : Effect} (h : e.subject? = none) : e.claims? = none := by
  unfold claims?
  split
  · cases h
  · rfl

/-- **A claim that was not granted changes nothing.** -/
theorem TaskStore.Answers.find?_of_unclaimed {mayFail : Prop} {s s' : TaskStore}
    {id owner x : String} {deadline now : Instant} {answer : Except Error (Option Task)}
    (h : Answers mayFail s (.request (.tasks (.claim id owner deadline now))) answer s')
    (hanswer : ∀ t, answer ≠ .ok (some t)) : s'.find? x = s.find? x := by
  obtain ⟨at_, hmoves⟩ := h.moves x
  refine hmoves.eq_of_changes ?_
  match answer with
  | .error _ => rfl
  | .ok none => rfl
  | .ok (some t) => exact absurd rfl (hanswer t)

variable {mayFail : Prop} {s s' : TaskStore} {leave : Leave} {e : Effect} {answer : e.Answer}
  {x : String}

namespace Leave

theorem left_after_le (hclaim : e.claims? = .none)
    (htoken : ∀ cancelled, Answered.token? ⟨e, answer⟩ = some cancelled → cancelled = true) :
    (leave.after e answer).left ≤ leave.left := by
  cases h : Answered.token? ⟨e, answer⟩ with
  | none => exact Nat.le_of_eq (congrArg left (after_eq hclaim h))
  | some cancelled =>
    obtain rfl := htoken cancelled h
    cases Answered.eq_of_token? h
    exact Nat.zero_le leave.left

theorem used_of_after (hfiled : TaskStore.IsFiled s)
    (answered : TaskStore.Answers mayFail s e answer s') (h : leave.after e answer = used x) :
    leave = used x ∨ Answered.claimed? ⟨e, answer⟩ = some x := by
  unfold after at h
  split at h
  · split at h <;> cases h
  · cases h
    exact .inr (congrArg some (Scheduler.id_of_claimed hfiled answered).symm)
  · cases h
  · exact .inl h

end Leave

namespace Heeding

/-- **A claim uses leave up**, and there is no new one once the token is cancelled.

So over a run the number of claims and the leave that is left stay below the leave at its
beginning, which is one claim at most. -/
theorem left_le (h : Heeding leave e)
    (htoken : ∀ cancelled, Answered.token? ⟨e, answer⟩ = some cancelled → cancelled = true) :
    e.claims?.toList.length + (leave.after e answer).left ≤ leave.left := by
  cases h with
  | claim =>
    match answer with
    | .error _ => exact Nat.le_refl 1
    | .ok none => exact Nat.le_refl 1
    | .ok (some _) => exact Nat.le_refl 1
  | granted _ hclaim =>
    rw [hclaim]
    simpa using Leave.left_after_le hclaim htoken
  | elsewhere hsubject =>
    have hclaim := Effect.claims?_eq_none hsubject
    rw [hclaim]
    simpa using Leave.left_after_le hclaim htoken

/-- **A task that was not granted is not changed**, neither now nor before. -/
theorem find?_eq (h : Heeding leave e) (answered : TaskStore.Answers mayFail s e answer s')
    (hused : leave ≠ .used x) (hclaimed : Answered.claimed? ⟨e, answer⟩ ≠ some x) :
    s'.find? x = s.find? x := by
  cases h with
  | @claim id owner deadline now =>
    by_cases hid : id = x
    · refine answered.find?_of_unclaimed fun t ht => hclaimed ?_
      subst ht hid
      rfl
    · exact answered.find?_of_ne fun h => hid (Option.some_inj.mp h)
  | granted hsubject _ =>
    refine answered.find?_of_ne fun h => hused ?_
    rw [Option.some_inj.mp (hsubject.symm.trans h)]
  | elsewhere hsubject =>
    refine answered.find?_of_ne ?_
    rw [hsubject]
    exact fun h => by cases h

end Heeding

end Gathering
