import Gathering.Proofs.Keyed
import Gathering.Proofs.Program.Trace
import Gathering.Proofs.Scheduler.Making
import Gathering.Proofs.Store.Sharing
import Gathering.Proofs.Task.Action
import Gathering.Proofs.Time.Saturation
import Mathlib.Data.Fintype.EquivFin

/-!
# The tasks that are planned for an event

A plan says for each kind of action whether an event has it, and when: an outreach some
time before the start, and the closure at the end, or some time after the start if the
end is not known. A time that the clock does not have is its first or last instant
(`Instant.sub_eq_getD`, `Instant.add_eq_getD`). What is asked for at an instant are all
of these but the outreach whose time has passed (`ActionPlan.asked`).

The tasks are made one after the other, each of them from a draft that holds the name of
its action. Since that name is read back as the action, and every identifier is new, each
task is added as it was planned, and none of them meets an older one
(`Scheduler.scheduleEvent_makes_plan`).

The plan of the specification is a function of the kind of action
(`ActionPlan.timeOf?`), with one line for each kind; the program goes through a list
of the same kinds in the same order. That the two agree is shown first, so that
nothing else depends on how the program is written.
-/

namespace Gathering

/-! ## The plan

A lead is taken off the start and a length is added to it, both cut off where the clock ends. Here
they are written as moves of an instant that may fail, which is what saturation is about. -/

/-- A lead before the start of an event, saturated. -/
def Event.beforeStart (e : Event) (lead : Span) : Instant :=
  (e.startsAt.shift? (-lead.nanos)).getD .first

/-- A length after the start of an event, saturated. -/
def Event.afterStart (e : Event) (length : Span) : Instant :=
  (e.startsAt.shift? length.nanos).getD .last

/-- **When an action of an event is due**, if it is enabled: an outreach its lead before the start,
and the closure at the end. -/
def ActionPlan.timeOf? (plan : ActionPlan) (e : Event) : Action → Option Instant
  | .confirmation => plan.confirmationLead.map e.beforeStart
  | .reminder => plan.reminderLead.map e.beforeStart
  | .location => plan.locationLead.map e.beforeStart
  | .closure =>
    if plan.closure then some (e.endsAt.getD (e.afterStart plan.defaultEventLength)) else none
  | .unknown _ => none

/-- **What the plan of an event asks for at an instant**: every enabled action, except for outreach
whose time has passed. -/
def ActionPlan.asked (plan : ActionPlan) (e : Event) (now : Instant) : List (Action × Instant) :=
  Action.known.filterMap fun action =>
    ((plan.timeOf? e action).filter fun t => action = .closure ∨ ¬ t < now).map (action, ·)

/-- The plan of an event says when its actions are due. -/
theorem ActionPlan.actions_eq (plan : ActionPlan) (e : Event) :
    plan.actions e =
      Action.known.filterMap fun action => (plan.timeOf? e action).map (action, ·) := by
  obtain ⟨confirmation, reminder, location, closure, length⟩ := plan
  simp only [actions, endOf, Instant.sub_eq_getD, Instant.add_eq_getD]
  cases confirmation <;> cases reminder <;> cases location <;> cases closure <;> rfl

/-- **What is still planned is what the plan asks for.** -/
theorem ActionPlan.filter_actions (plan : ActionPlan) (e : Event) (now : Instant) :
    (plan.actions e).filter (isStillPlanned now) = plan.asked e now := by
  rw [actions_eq, List.filter_filterMap]
  unfold asked
  congr 1
  funext action
  rw [Option.filter_map]
  congr 2
  funext t
  simp only [isStillPlanned, Function.comp_apply, Bool.decide_or]
  exact congrArg (_ || ·) (decide_eq_decide.mpr Instant.not_lt.symm)

theorem ActionPlan.known_of_mem_asked {plan : ActionPlan} {e : Event} {now : Instant}
    {planned : Action × Instant} (h : planned ∈ plan.asked e now) : planned.1 ∈ Action.known := by
  obtain ⟨action, hknown, haction⟩ := List.mem_filterMap.mp h
  obtain ⟨t, -, rfl⟩ := Option.map_eq_some_iff.mp haction
  exact hknown

/-! ## Making tasks

Tasks are made one by one, and each of them is made in four steps: the time, the check of its
draft, a new identifier, the insertion. With identifiers that are always new and calls that do not
fail, the only way in which this can end is with the task. -/

/-- **The draft of a planned action is sound**, and its action is read back from its name.

The draft holds a text for the action, as every draft does. The names of the known actions are
read as these actions, so what was planned is what is made. -/
theorem check_plannedDraft {e : Event} {planned : Action × Instant} {n : Nat}
    (hid : Text.isBlank e.id = false) (hn : 0 < n) (hknown : planned.1 ∈ Action.known) :
    (plannedDraft e planned).check n = .ok ⟨planned.1, planned.2, n⟩ := by
  simp only [TaskDraft.check, plannedDraft, hid, TaskDraft.need, Option.getD_none, bind,
    Except.bind, Action.parse_known _ hknown]
  rw [if_neg Bool.false_ne_true]
  exact if_neg (Nat.ne_of_gt hn)

namespace TaskStore

/-- **A store that nobody else calls**, while every new identifier is new to it. -/
def minting : Surroundings TaskStore where
  answers s e answer s' := Answers False s e answer s' ∧
    ∀ id : String, (⟨e, answer⟩ : Answered) = ⟨.request .freshId, id⟩ → s.find? id = none
  meanwhile := Eq

theorem exists_new (s : TaskStore) : ∃ id, s.find? id = none := by
  have : Infinite String := Infinite.of_injective (fun n : Nat => String.ofList (.replicate n 'a'))
    fun m n h => by simpa using congrArg List.length (String.ofList_injective h)
  obtain ⟨id, hid⟩ := Infinite.exists_notMem_finset (s.rows.entries.map (·.1)).toFinset
  refine ⟨id, Option.eq_none_iff_forall_ne_some.mpr fun t ht => hid ?_⟩
  exact List.mem_toFinset.mpr (List.mem_map.mpr ⟨(id, t), Keyed.mem_entries_iff.mpr ht, rfl⟩)

/-- Every effect gets an answer. -/
theorem exists_answer_minting (s : TaskStore) (e : Effect) :
    ∃ answer s', minting.answers s e answer s' := by
  by_cases hcall : ∃ call, e = .request (.tasks call)
  · obtain ⟨call, rfl⟩ := hcall
    exact ⟨_, _, .tasks .epoch call, fun _ h => by cases h⟩
  · have helsewhere : ∀ answer, Answers False s e answer s :=
      .elsewhere fun call he => hcall ⟨call, he⟩
    by_cases hfresh : e = .request .freshId
    · subst hfresh
      obtain ⟨id, hid⟩ := s.exists_new
      exact ⟨id, s, helsewhere id, fun _ h => by cases h; exact hid⟩
    · obtain ⟨answer⟩ := e.nonempty_answer
      exact ⟨answer, s, helsewhere answer, fun _ h => (hfresh (congrArg Answered.effect h)).elim⟩

theorem respond_insert_of_new {s : TaskStore} {t : Task} (now : Instant)
    (h : s.find? t.id = none) :
    s.respond now (.insert t) = (.ok (), ⟨s.rows.insert t.id t⟩) := by
  simp only [respond, perform, insert, h, Except.map]

end TaskStore

namespace Scheduler

variable {s : Scheduler} {e : Event} {store store' : TaskStore} {turns : List (Turn TaskStore)}

/-- **How a task is made** from a draft that is sound. -/
theorem run_create {draft : TaskDraft} {sound : TaskDraft.Sound}
    (h : draft.check s.config.maxRetries = .ok sound) :
    (s.create draft).run = (do
      let now ← Work.now
      let id ← Work.freshId
      let answer ← Work.request (.tasks (.insert (draft.toTask sound id now)))
      return answer.map fun _ => draft.toTask sound id now) := by
  unfold create
  rw [h]
  refine congrArg (Work.now >>= ·) (funext fun now => ?_)
  refine congrArg (Work.freshId >>= ·) (funext fun id => ?_)
  refine congrArg (Work.request (.tasks (.insert (draft.toTask sound id now))) >>= ·)
    (funext fun answer => ?_)
  cases answer <;> rfl

/-- **A task that is made is added** under an identifier that was new. -/
theorem created_of_runs {draft : TaskDraft} {sound : TaskDraft.Sound} {result : Except Error Task}
    (h : draft.check s.config.maxRetries = .ok sound)
    (run : Work.Runs TaskStore.minting store (s.create draft).run turns result store') :
    ∃ id now, result = .ok (draft.toTask sound id now) ∧ store.find? id = none ∧
      ∀ x, store'.find? x = if x = id then some (draft.toTask sound id now) else store.find? x := by
  rw [run_create h] at run
  obtain ⟨_, now, _, _, rfl, rfl, told, run₁⟩ := Work.runs_call_iff.mp run
  obtain rfl := told.1.eq_of_elsewhere fun _ h => by cases h
  obtain ⟨_, id, _, _, rfl, rfl, minted, run₂⟩ := Work.runs_call_iff.mp run₁
  obtain rfl := minted.1.eq_of_elsewhere fun _ h => by cases h
  have hnew := minted.2 id rfl
  obtain ⟨_, answer, _, _, rfl, rfl, inserted, run₃⟩ := Work.runs_call_iff.mp run₂
  obtain ⟨rfl, rfl, rfl⟩ := Work.runs_pure_iff.mp run₃
  obtain ⟨at_, rfl, rfl⟩ := inserted.1.eq_respond
  have hadded := TaskStore.respond_insert_of_new at_
    (t := draft.toTask sound id now) hnew
  rw [hadded]
  exact ⟨id, now, rfl, hnew, fun x => Keyed.find?_insert _ _ _ x⟩

/-- **The tasks that were made for an event**, and the store before and after.

The last field is a frame: whatever was in the store before, under whatever identifiers, is still
there. -/
structure Planned (s : Scheduler) (e : Event) (asked : List (Action × Instant)) (store : TaskStore)
    (tasks : List Task) (store' : TaskStore) : Prop where
  /-- There is one task for each action that is asked for, in this order. -/
  asked : tasks.map (fun t => (t.action, t.scheduledAt)) = asked
  /-- Each of them belongs to the event, is pending and has all of its attempts. -/
  fresh : ∀ t ∈ tasks, t.eventId = e.id ∧ t.status = .pending ∧ t.retries = 0 ∧
    t.maxRetries = s.config.maxRetries
  /-- Its identifier was new. -/
  new : ∀ t ∈ tasks, store.find? t.id = none
  /-- No two of them have the same identifier. -/
  distinct : (tasks.map (·.id)).Nodup
  /-- It is stored as it is. -/
  stored : ∀ t ∈ tasks, store'.find? t.id = some t
  /-- No other task has changed. -/
  others : ∀ id ∉ tasks.map (·.id), store'.find? id = store.find? id

/-- One task is made before the others.

The store in between has the first task and is otherwise the old one, so an identifier that is new
to it is new to the old one and different from the first. -/
theorem Planned.cons {action : Action} {at_ : Instant} {asked : List (Action × Instant)} {t : Task}
    {tasks : List Task} {store₁ : TaskStore} (haction : t.action = action)
    (hat : t.scheduledAt = at_)
    (hfresh : t.eventId = e.id ∧ t.status = .pending ∧ t.retries = 0 ∧
      t.maxRetries = s.config.maxRetries)
    (hnew : store.find? t.id = none)
    (hadded : ∀ id, store₁.find? id = if id = t.id then some t else store.find? id)
    (h : Planned s e asked store₁ tasks store') :
    Planned s e ((action, at_) :: asked) store (t :: tasks) store' := by
  have hself : store₁.find? t.id = some t := (hadded _).trans (if_pos rfl)
  have hne : t.id ∉ tasks.map (·.id) := fun hmem => by
    obtain ⟨u, hu, hid⟩ := List.mem_map.mp hmem
    cases (hid ▸ h.new u hu : store₁.find? t.id = none).symm.trans hself
  refine ⟨?_, ?_, ?_, ?_, ?_, fun id hid => ?_⟩
  · rw [List.map_cons, h.asked, haction, hat]
  · exact List.forall_mem_cons.mpr ⟨hfresh, h.fresh⟩
  · refine List.forall_mem_cons.mpr ⟨hnew, fun u hu => ?_⟩
    have hother : u.id ≠ t.id := fun hid => hne (hid ▸ List.mem_map_of_mem hu)
    exact ((hadded u.id).trans (if_neg hother)).symm.trans (h.new u hu)
  · exact List.nodup_cons.mpr ⟨hne, h.distinct⟩
  · exact List.forall_mem_cons.mpr ⟨(h.others t.id hne).trans hself, h.stored⟩
  · obtain ⟨hid, hrest⟩ := not_or.mp (mt List.mem_cons.mpr hid)
    rw [h.others id hrest, hadded, if_neg hid]

/-- **How several tasks are made**: the first one, and then the others. -/
theorem run_createAll_cons (s : Scheduler) (draft : TaskDraft) (drafts : List TaskDraft) :
    (s.createAll (draft :: drafts)).run = (do
      match ← (s.create draft).run with
      | .error err => return .error err
      | .ok task =>
        match ← (s.createAll drafts).run with
        | .error err => return .error err
        | .ok tasks => return .ok (task :: tasks)) := by
  refine congrArg ((s.create draft).run >>= ·) (funext fun task => ?_)
  cases task with
  | error err => rfl
  | ok task =>
    refine congrArg ((s.createAll drafts).run >>= ·) (funext fun tasks => ?_)
    cases tasks <;> rfl

/-- **Planned actions become tasks**, one after the other.

By induction on what is planned, over any store: the first task is added, and the others are made
in the store that has it. -/
theorem planned_of_runs {asked : List (Action × Instant)} {result : Except Error (List Task)}
    (hid : Text.isBlank e.id = false) (hretries : 0 < s.config.maxRetries)
    (hknown : ∀ planned ∈ asked, planned.1 ∈ Action.known)
    (run : Work.Runs TaskStore.minting store (s.createAll (asked.map (plannedDraft e))).run turns
      result store') : ∃ tasks, result = .ok tasks ∧ Planned s e asked store tasks store' := by
  induction asked generalizing store store' turns result with
  | nil =>
    obtain ⟨rfl, rfl, rfl⟩ := Work.runs_pure_iff.mp run
    exact ⟨[], rfl, rfl, (fun _ h => by cases h), (fun _ h => by cases h), List.nodup_nil,
      (fun _ h => by cases h), fun _ _ => rfl⟩
  | cons planned asked ih =>
    obtain ⟨hfirst, hrest⟩ := List.forall_mem_cons.mp hknown
    have hcheck := check_plannedDraft hid hretries hfirst
    rw [List.map_cons, run_createAll_cons] at run
    obtain ⟨_, _, created, store₁, rfl, creating, run₁⟩ := Work.runs_bind_iff.mp run
    obtain ⟨id, now, rfl, hnew, hadded⟩ := created_of_runs hcheck creating
    obtain ⟨_, _, others, store₂, rfl, creatingAll, run₂⟩ := Work.runs_bind_iff.mp run₁
    obtain ⟨tasks, rfl, hplanned⟩ := ih hrest creatingAll
    obtain ⟨rfl, rfl, rfl⟩ := Work.runs_pure_iff.mp run₂
    exact ⟨_, rfl, hplanned.cons rfl rfl ⟨rfl, rfl, rfl, rfl⟩ hnew hadded⟩

/-- **How the tasks of an event are made**: the plan is looked at once the time is known. -/
theorem run_scheduleEvent (s : Scheduler) (e : Event) (h : e.status.isOver = false) :
    (s.scheduleEvent e).run = (do
      let now ← Work.now
      (s.createAll ((s.config.plan.asked e now).map (plannedDraft e))).run) := by
  unfold scheduleEvent
  rw [h]
  simp only [← ActionPlan.filter_actions]
  rfl

/-- Nothing is planned for an event that is over. -/
theorem run_scheduleEvent_of_isOver (s : Scheduler) (e : Event) (h : e.status.isOver = true) :
    (s.scheduleEvent e).run = pure (.error (.invalidInput
      ("event " ++ e.id ++ " is " ++ e.status.name ++ ", nothing to schedule"))) := by
  unfold scheduleEvent
  rw [h]
  rfl

/-- **What planning an event does.** -/
structure PlansEvent (s : Scheduler) (e : Event) (store : TaskStore) (turns : List (Turn TaskStore))
    (result : Except Error (List Task)) (store' : TaskStore) : Prop where
  /-- It is refused, and nothing changes, exactly if the event is over. -/
  refused : ((∃ reason, result = .error (.invalidInput reason)) ∧ store' = store) ↔
    e.status = .completed ∨ e.status = .cancelled
  /-- Otherwise it makes the tasks that the plan asks for at the time that it was told first. -/
  planned : ¬ (e.status = .completed ∨ e.status = .cancelled) →
    ∃ now rest tasks, turns.map (·.deed) = ⟨.request .now, now⟩ :: rest ∧ result = .ok tasks ∧
      Planned s e (s.config.plan.asked e now) store tasks store'

theorem isOver_iff {status : EventStatus} :
    status.isOver = true ↔ status = .completed ∨ status = .cancelled := by
  cases status <;> simp [EventStatus.isOver]

/-- **Planning an event makes exactly its plan.**

It always comes to an end, and whatever run it makes, an event that is over is refused without a
call of the store, and of any other event the tasks of the plan are made (`planned_of_runs`), at
the time that was told first. -/
theorem scheduleEvent_makes_plan (s : Scheduler) (e : Event) (store : TaskStore)
    (hid : Text.isBlank e.id = false) (hretries : 0 < s.config.maxRetries) :
    (∃ turns result store',
      Work.Runs TaskStore.minting store (s.scheduleEvent e).run turns result store') ∧
    ∀ turns result store',
      Work.Runs TaskStore.minting store (s.scheduleEvent e).run turns result store' →
        PlansEvent s e store turns result store' := by
  refine ⟨Work.exists_runs (fun s => ⟨s, rfl⟩) TaskStore.exists_answer_minting _ store,
    fun turns result store' run => ?_⟩
  cases hover : e.status.isOver with
  | true =>
    rw [run_scheduleEvent_of_isOver s e hover] at run
    obtain ⟨rfl, rfl, rfl⟩ := Work.runs_pure_iff.mp run
    exact ⟨iff_of_true ⟨⟨_, rfl⟩, rfl⟩ (isOver_iff.mp hover),
      fun hnot => absurd (isOver_iff.mp hover) hnot⟩
  | false =>
    have hnot := mt isOver_iff.mpr (Bool.eq_false_iff.mp hover)
    rw [run_scheduleEvent s e hover] at run
    obtain ⟨_, now, _, _, rfl, rfl, told, run₁⟩ := Work.runs_call_iff.mp run
    obtain rfl := told.1.eq_of_elsewhere fun _ h => by cases h
    obtain ⟨tasks, rfl, hplanned⟩ := planned_of_runs hid hretries
      (fun _ => ActionPlan.known_of_mem_asked) run₁
    exact ⟨iff_of_false (fun ⟨⟨_, h⟩, _⟩ => by cases h) hnot,
      fun _ => ⟨now, _, tasks, rfl, rfl, hplanned⟩⟩

/-- The closure of an event is asked for at any time, if it is enabled. -/
theorem closure_mem_asked {plan : ActionPlan} (h : plan.closure = true) (e : Event)
    (now : Instant) :
    (.closure, e.endsAt.getD (e.afterStart plan.defaultEventLength)) ∈ plan.asked e now := by
  have htime : plan.timeOf? e .closure =
      some (e.endsAt.getD (e.afterStart plan.defaultEventLength)) := if_pos h
  refine List.mem_filterMap.mpr ⟨.closure, by decide, ?_⟩
  rw [htime, Option.filter_some, if_pos (decide_eq_true (.inl rfl)), Option.map_some]

/-- An empty store holds the closure of an event once the event was planned. -/
theorem scheduleEvent_makes_plan_of_empty :
    ∃ turns tasks store', Work.Runs TaskStore.minting .empty
        (scheduleEvent ⟨"s", {}⟩ ⟨"e", "o", "", .scheduled, .epoch, none, none⟩).run turns
        (.ok tasks) store' ∧
      ∃ t ∈ tasks, t.action = .closure ∧ t.status = .pending ∧ store'.find? t.id = some t := by
  obtain ⟨⟨turns, result, store', run⟩, hplans⟩ :=
    scheduleEvent_makes_plan ⟨"s", {}⟩ ⟨"e", "o", "", .scheduled, .epoch, none, none⟩ .empty
      (by decide +kernel) (by decide)
  obtain ⟨now, _, tasks, -, rfl, hplanned⟩ := (hplans _ _ _ run).planned (by decide)
  have henabled : ({} : SchedulerConfig).plan.closure = true := rfl
  have hasked := closure_mem_asked henabled ⟨"e", "o", "", .scheduled, .epoch, none, none⟩ now
  rw [← hplanned.asked] at hasked
  obtain ⟨t, ht, hclosure⟩ := List.mem_map.mp hasked
  exact ⟨turns, tasks, store', run, t, ht, congrArg Prod.fst hclosure, (hplanned.fresh t ht).2.1,
    hplanned.stored t ht⟩

end Scheduler

end Gathering
