import Gathering.Proofs.Scheduler.Heeding
import Gathering.Proofs.Service.Calls

/-!
# Sweepers in the background

A service has its sweeper in the background, on a store of tasks that others use too.
A sweeper runs one sweep after another; when it begins one is left open, so whatever
its ticks are, they are among the steps. Its sweeps, its being told to stop and what
others do may come in any order, and the sweeper writes down what happens to it
(`Backstage.Note`).

To tell a sweeper to stop is to cancel its token. It finds out when it looks: after
that it makes no further claim, and it changes no task but those that it has claimed
(`Backstage.Heeds`). A claim that it was about to make when it was told to stop is
made all the same, because it has looked before.

Two logs are kept apart. The turns of a sweep are those of its program, answered by
the shared store; and what the service does to the sweeper, to start it and to tell
it to stop, comes from outside. A sweeper's log holds both, in the order in which
they happened, so that "after it was told to stop" is a place in this log.
-/

namespace Gathering

open TaskStore (IsFiled)
open Scheduler (HasNoLeave)

/-- A store of tasks answers every effect somehow. -/
theorem TaskStore.exists_answer (s : TaskStore) (e : Effect) :
    ∃ answer s', Answers True s e answer s' := by
  by_cases hcall : ∃ call, e = .request (.tasks call)
  · obtain ⟨call, rfl⟩ := hcall
    exact ⟨_, _, .tasks .epoch call⟩
  · obtain ⟨answer⟩ := e.nonempty_answer
    exact ⟨answer, s, .elsewhere (fun call h => hcall ⟨call, h⟩) answer⟩

namespace Backstage

/-! ## Logs

Of a log it matters how many claims there are, which of them were granted, and how much leave is
left at its end. Each of these is reckoned note by note. -/

/-- **What happens to a sweeper.** -/
inductive Note where
  /-- Its sweep has taken a turn. -/
  | took (turn : Turn TaskStore)
  /-- It was told to stop. -/
  | stopped

namespace Note

/-- Whether the sweeper was told to stop. -/
def isStop : Note → Bool
  | took _ => false
  | stopped => true

/-- The task that the sweeper has asked for. -/
def claims? : Note → Option String
  | took turn => turn.effect.claims?
  | stopped => none

/-- The task that the sweeper was granted. -/
def claimed? : Note → Option String
  | took turn => turn.deed.claimed?
  | stopped => none

/-- What becomes of the leave to claim a task. -/
def lead (leave : Leave) : Note → Leave
  | took turn => leave.after turn.effect turn.answer
  | stopped => leave

end Note

/-- The tasks that a sweeper has asked for: one for each of its claims. -/
def claims (log : List Note) : List String := log.filterMap Note.claims?

/-- The tasks that a sweeper was granted. -/
def claimed (log : List Note) : List String := log.filterMap Note.claimed?

/-- The leave that a sweeper has in the end. -/
def leave (log : List Note) : Leave := log.foldl Note.lead .none

variable {log before after : List Note} {note : Note}

theorem claims_concat : claims (log ++ [note]) = claims log ++ note.claims?.toList := by
  cases h : note.claims? <;> simp [claims, h]

theorem claimed_concat : claimed (log ++ [note]) = claimed log ++ note.claimed?.toList := by
  cases h : note.claimed? <;> simp [claimed, h]

theorem leave_concat : leave (log ++ [note]) = note.lead (leave log) := by
  simp [leave]

theorem claimed_append : claimed (before ++ after) = claimed before ++ claimed after :=
  List.filterMap_append

/-- One note more after a stop is that stop, or it comes after it. -/
theorem concat_eq_split_iff :
    log ++ [note] = before ++ .stopped :: after ↔
      note = .stopped ∧ log = before ∧ after = [] ∨
        ∃ after', after = after' ++ [note] ∧ log = before ++ .stopped :: after' := by
  constructor
  · intro h
    rcases List.eq_nil_or_concat' after with rfl | ⟨after', note', rfl⟩
    · obtain ⟨rfl, hnote⟩ := List.append_inj' h rfl
      exact .inl ⟨List.singleton_inj.mp hnote, rfl, rfl⟩
    · rw [← List.cons_append, ← List.append_assoc] at h
      obtain ⟨rfl, hnote⟩ := List.append_inj' h rfl
      cases List.singleton_inj.mp hnote
      exact .inr ⟨after', rfl, rfl⟩
  · rintro (⟨rfl, rfl, rfl⟩ | ⟨after', rfl, rfl⟩)
    · rfl
    · simp

/-- **What a sweeper still does once it was told to stop.** -/
structure Heeds (before after : List Note) : Prop where
  /-- It makes no claim but the one that it had leave for. -/
  claims : (claims after).length ≤ (leave before).left
  /-- It changes no task but those that it was granted. -/
  untouched : ∀ x, x ∉ claimed before → x ∉ claimed after →
    ∀ turn, .took turn ∈ after → turn.after.find? x = turn.before.find? x

/-! ## One sweeper

The invariant of a sweeper (`Sweeper.Sound`) is kept by each of its steps. A turn of its sweep is
the step that has something to show: the sweep heeds its token, and the answer is one that a
shared store may give. -/

/-- **A sweeper in the background.** -/
structure Sweeper where
  /-- Its scheduler. -/
  scheduler : Scheduler
  /-- How many tasks one sweep takes on. -/
  batchSize : Nat
  /-- What is left of the sweep under way, if there is one. -/
  sweep : Option (Work (Except Error SweepReport)) := none
  /-- What has happened to it, the first at the front. -/
  log : List Note := []

namespace Sweeper

variable {w w' : Sweeper} {s s' : TaskStore}

/-- Whether its token is cancelled. -/
def isStopped (w : Sweeper) : Bool := w.log.any Note.isStop

/-- Cancels its token. -/
def stop (w : Sweeper) : Sweeper := { w with log := w.log ++ [.stopped] }

/-- **A step of a sweeper**, on the store of tasks. -/
inductive Step : TaskStore → Sweeper → TaskStore → Sweeper → Prop
  /-- It begins a sweep. -/
  | begins {s : TaskStore} {w : Sweeper} (h : w.sweep = none) :
      Step s w s { w with sweep := some (w.scheduler.sweep w.batchSize).run }
  /-- Its sweep asks for its next effect. The token is its own; the rest may be answered in any
  way, or fail. -/
  | asks {s s' : TaskStore} {w : Sweeper} {e : Effect}
      {next : e.Answer → Work (Except Error SweepReport)} {answer : e.Answer}
      (h : w.sweep = some (.ask e next)) (answered : TaskStore.Answers True s e answer s')
      (htoken : ∀ cancelled, Answered.token? ⟨e, answer⟩ = some cancelled →
        cancelled = w.isStopped) :
      Step s w s' { w with sweep := some (next answer), log := w.log ++ [.took ⟨s, e, answer, s'⟩] }
  /-- Its sweep has ended. -/
  | ends {s : TaskStore} {w : Sweeper} {r : Except Error SweepReport}
      (h : w.sweep = some (.done r)) : Step s w s { w with sweep := none }
  /-- It is told to stop. -/
  | stops {s : TaskStore} {w : Sweeper} : Step s w s w.stop

/-- **What is true of a sweeper at any time.** -/
structure Sound (w : Sweeper) : Prop where
  /-- The sweep under way heeds the token. -/
  sweep : ∀ p, w.sweep = some p → p.Obeys heeding (fun _ => HasNoLeave) (leave w.log)
  /-- Between sweeps there is no leave to claim a task. -/
  idle : w.sweep = none → HasNoLeave (leave w.log)
  /-- A task with which the sweep goes on was granted. -/
  used : ∀ x, leave w.log = .used x → x ∈ claimed w.log
  /-- Only tasks that were granted were changed. -/
  untouched : ∀ x, x ∉ claimed w.log →
    ∀ turn, .took turn ∈ w.log → turn.after.find? x = turn.before.find? x
  /-- After a stop, claims have used up the leave that there was, and there is no new one. -/
  left_le : ∀ before after, w.log = before ++ .stopped :: after →
    (claims after).length + (leave w.log).left ≤ (leave before).left

theorem Sound.of_new (scheduler : Scheduler) (batchSize : Nat) :
    Sound { scheduler, batchSize } where
  sweep := fun _ h => by cases h
  idle := fun _ h => by cases h
  used := fun _ h => by cases h
  untouched := fun _ _ _ h => by cases h
  left_le := fun before after h => by simp at h

/-- A sweeper that is told to stop. -/
theorem Sound.stop (h : w.Sound) : w.stop.Sound := by
  have hleave : leave w.stop.log = leave w.log := leave_concat
  have hclaimed : claimed w.stop.log = claimed w.log := claimed_concat.trans (List.append_nil _)
  refine ⟨?_, ?_, ?_, ?_, ?_⟩
  · rw [hleave]
    exact h.sweep
  · rw [hleave]
    exact h.idle
  · rw [hleave, hclaimed]
    exact h.used
  · rw [hclaimed]
    intro x hx turn hturn
    refine h.untouched x hx turn ((List.mem_append.mp hturn).resolve_right fun hturn => ?_)
    cases List.mem_singleton.mp hturn
  · intro before after hsplit
    rw [hleave]
    rcases concat_eq_split_iff.mp hsplit with ⟨_, rfl, rfl⟩ | ⟨after', rfl, hlog⟩
    · exact Nat.le_of_eq (Nat.zero_add _)
    · rw [claims_concat]
      simpa [Note.claims?] using h.left_le before after' hlog

/-- A sweeper whose sweep goes on. -/
theorem Sound.asks {e : Effect} {next : e.Answer → Work (Except Error SweepReport)}
    {answer : e.Answer} (h : w.Sound) (hfiled : IsFiled s) (hsweep : w.sweep = some (.ask e next))
    (answered : TaskStore.Answers True s e answer s')
    (htoken : ∀ cancelled, Answered.token? ⟨e, answer⟩ = some cancelled →
      cancelled = w.isStopped) :
    Sound { w with sweep := some (next answer), log := w.log ++ [.took ⟨s, e, answer, s'⟩] } := by
  obtain ⟨hallowed, hnext⟩ := h.sweep _ hsweep
  have hleave : leave (w.log ++ [.took ⟨s, e, answer, s'⟩]) = (leave w.log).after e answer :=
    leave_concat
  refine ⟨?_, (fun h => by cases h), ?_, ?_, ?_⟩
  · -- the rest of the sweep heeds the token, from the leave that the answer gives
    rintro _ ⟨⟩
    rw [hleave]
    exact hnext answer
  · -- the task that the sweep goes on with was granted before, or by this answer
    intro x hused
    rw [claimed_concat]
    rw [hleave] at hused
    rcases Leave.used_of_after hfiled answered hused with hbefore | hnow
    · exact List.mem_append_left _ (h.used x hbefore)
    · exact List.mem_append_right _ (Option.mem_toList.mpr hnow)
  · -- a task that was not granted is not changed, neither before nor by this turn
    intro x hx turn hturn
    rw [claimed_concat, List.mem_append, not_or] at hx
    rcases List.mem_append.mp hturn with hturn | hturn
    · exact h.untouched x hx.1 turn hturn
    · cases List.mem_singleton.mp hturn
      exact Heeding.find?_eq hallowed answered (fun hused => hx.1 (h.used x hused))
        fun hclaimed => hx.2 (Option.mem_toList.mpr hclaimed)
  · -- this turn is not a stop, so it comes after it, and there the token is cancelled
    intro before after hsplit
    obtain ⟨hnote, _, _⟩ | ⟨after', rfl, hlog⟩ := concat_eq_split_iff.mp hsplit
    · cases hnote
    · have hstopped : w.isStopped = true := by simp [isStopped, hlog, Note.isStop]
      have hanswer := Heeding.left_le hallowed fun c hc => (htoken c hc).trans hstopped
      have hbefore := h.left_le before after' hlog
      show _ + (leave (w.log ++ _)).left ≤ _
      rw [hleave, claims_concat, List.length_append]
      exact (Nat.add_assoc _ _ _).le.trans
        ((Nat.add_le_add_left hanswer _).trans hbefore)

/-- **What is true of a sweeper stays true.** -/
theorem Sound.step (h : w.Sound) (hfiled : IsFiled s) (hstep : Step s w s' w') : w'.Sound := by
  cases hstep with
  | begins hsweep =>
    refine ⟨?_, (fun h => by cases h), h.used, h.untouched, h.left_le⟩
    rintro _ ⟨⟩
    exact Scheduler.sweep_heeds w.batchSize (h.idle hsweep)
  | asks hsweep answered htoken => exact h.asks hfiled hsweep answered htoken
  | ends hsweep =>
    have hidle : HasNoLeave (leave w.log) := h.sweep _ hsweep
    exact ⟨(fun _ h => by cases h), fun _ => hidle, h.used, h.untouched, h.left_le⟩
  | stops => exact h.stop

theorem Step.isFiled (hstep : Step s w s' w') (hfiled : IsFiled s) : IsFiled s' := by
  cases hstep with
  | begins _ | ends _ | stops => exact hfiled
  | asks _ answered _ => exact hfiled.answers answered

theorem Step.log_prefix (hstep : Step s w s' w') : w.log <+: w'.log := by
  cases hstep with
  | begins _ | ends _ => exact List.prefix_rfl
  | asks _ _ _ | stops => exact List.prefix_append _ _

/-- **A sweeper that was told to stop heeds its token.**

What the invariant says of the whole log is read at the stop: the claims after it and the leave
that is left come to no more than the leave before it. -/
theorem Sound.heeds (h : w.Sound) (hlog : w.log = before ++ .stopped :: after) :
    Heeds before after where
  claims := (Nat.le_add_right _ _).trans (h.left_le before after hlog)
  untouched := by
    intro x hbefore hafter turn hturn
    refine h.untouched x ?_ turn ?_
    · rw [hlog, claimed_append, List.mem_append, not_or]
      exact ⟨hbefore, hafter⟩
    · rw [hlog]
      exact List.mem_append_right _ (List.mem_cons_of_mem _ hturn)

end Sweeper

end Backstage

/-! ## Sweepers on a store

Any number of sweepers, a store that they share with others, and steps in any order. The service
that is looked at has one sweeper at most, but others may have theirs on the same store. -/

/-- **Sweepers in the background**, with the store of tasks that they share. -/
structure Backstage where
  /-- The tasks. -/
  tasks : TaskStore
  /-- The sweepers by number. -/
  sweepers : List Backstage.Sweeper

namespace Backstage

variable {st st' : Backstage}

/-- Starts a sweeper. -/
def spawn (st : Backstage) (scheduler : Scheduler) (batchSize : Nat) : Backstage :=
  { st with sweepers := st.sweepers ++ [{ scheduler, batchSize }] }

/-- Tells a sweeper to stop. -/
def stop (st : Backstage) (number : Nat) : Backstage :=
  { st with sweepers := st.sweepers.modify number Sweeper.stop }

/-- **A step in the background.** -/
inductive Step (st : Backstage) : Backstage → Prop
  /-- A sweeper takes a step. -/
  | sweeps {number : Nat} {w w' : Sweeper} {s' : TaskStore} (h : st.sweepers[number]? = some w)
      (hstep : Sweeper.Step st.tasks w s' w') : Step st ⟨s', st.sweepers.set number w'⟩
  /-- Others start a sweeper. -/
  | spawns (scheduler : Scheduler) (batchSize : Nat) : Step st (st.spawn scheduler batchSize)
  /-- Others call the store of tasks. -/
  | others {s' : TaskStore}
      (h : (TaskStore.shared True fun _ => True).meanwhile st.tasks s') :
      Step st { st with tasks := s' }

/-- **Any number of steps.** -/
abbrev Steps : Backstage → Backstage → Prop := Relation.ReflTransGen Step

/-- **How effects are answered** where there are sweepers in the background. -/
inductive Answers (st : Backstage) : (e : Effect) → e.Answer → Backstage → Prop
  /-- A sweeper is started. -/
  | spawns (scheduler : Scheduler) (config : SweeperConfig) :
      Answers st (.startSweeper scheduler config) st.sweepers.length
        (st.spawn scheduler config.batchSize)
  /-- A sweeper is told to stop, and then waited for while others go on. -/
  | stops {st' : Backstage} (number : Nat) (patience : Option Span) (ended : Bool)
      (others : Steps (st.stop number) st') :
      Answers st (.stopSweeper number patience) ended st'
  /-- It is not about sweepers. -/
  | elsewhere {e : Effect} {answer : e.Answer} {s' : TaskStore}
      (hspawn : ∀ scheduler config, e ≠ .startSweeper scheduler config)
      (hstop : ∀ number patience, e ≠ .stopSweeper number patience)
      (answered : TaskStore.Answers True st.tasks e answer s') :
      Answers st e answer { st with tasks := s' }

/-- **Where sweepers are in the background.** -/
def surroundings : Surroundings Backstage where
  answers := Answers
  meanwhile := Steps

/-- The cache may answer a ping in any way. -/
theorem answers_ping (st : Backstage) (pong : Except Error Unit) :
    surroundings.answers st .ping pong st := by
  have hcall : ∀ call, Effect.ping ≠ .request (.tasks call) := fun _ h => by cases h
  have answered : TaskStore.Answers True st.tasks .ping pong st.tasks := .elsewhere hcall pong
  exact .elsewhere (fun _ _ h => by cases h) (fun _ _ h => by cases h) answered

theorem exists_answer (st : Backstage) (e : Effect) :
    ∃ answer st', surroundings.answers st e answer st' := by
  cases e with
  | startSweeper scheduler config => exact ⟨_, _, .spawns scheduler config⟩
  | stopSweeper number patience => exact ⟨_, _, .stops number patience true .refl⟩
  | request _ | fanOut _ =>
    obtain ⟨answer, s', answered⟩ := TaskStore.exists_answer st.tasks _
    exact ⟨answer, _, .elsewhere (fun _ _ h => by cases h) (fun _ _ h => by cases h) answered⟩

/-- **What is true in the background at any time.** -/
structure Sound (st : Backstage) : Prop where
  /-- Every task is under its identifier. -/
  filed : IsFiled st.tasks
  /-- What is true of every sweeper. -/
  sweepers : ∀ w ∈ st.sweepers, w.Sound

/-- **What the sweepers have written down stays written down.** -/
def Keeps (st st' : Backstage) : Prop :=
  ∀ (number : Nat) (w : Sweeper), st.sweepers[number]? = some w →
    ∃ w' : Sweeper, st'.sweepers[number]? = some w' ∧ w.log <+: w'.log

theorem Keeps.refl (st : Backstage) : Keeps st st :=
  fun _ w h => ⟨w, h, List.prefix_rfl⟩

theorem Keeps.trans {st₁ : Backstage} (h : Keeps st st₁) (h' : Keeps st₁ st') : Keeps st st' := by
  intro number w hw
  obtain ⟨w₁, hw₁, hlog₁⟩ := h number w hw
  obtain ⟨w', hw', hlog'⟩ := h' number w₁ hw₁
  exact ⟨w', hw', hlog₁.trans hlog'⟩

theorem sound_of_isFiled {tasks : TaskStore} (hfiled : IsFiled tasks) : Sound ⟨tasks, []⟩ :=
  ⟨hfiled, fun _ h => by cases h⟩

/-! ### What a step preserves

Two things are shown of every step, of any number of steps, and of whatever is answered: each
sweeper is sound, and what was written down stays. The second is what makes it possible to speak
later of what a sweeper had done when it was told to stop. -/

theorem Sound.spawn (h : st.Sound) (scheduler : Scheduler) (batchSize : Nat) :
    (st.spawn scheduler batchSize).Sound :=
  ⟨h.filed, List.forall_mem_append.mpr ⟨h.sweepers, List.forall_mem_singleton.mpr
    (.of_new scheduler batchSize)⟩⟩

theorem Sound.stop (h : st.Sound) (number : Nat) : (st.stop number).Sound := by
  refine ⟨h.filed, fun w hw => ?_⟩
  obtain ⟨i, hi⟩ := List.mem_iff_getElem?.mp hw
  rw [Backstage.stop, List.getElem?_modify] at hi
  obtain ⟨w₀, hw₀, rfl⟩ := Option.map_eq_some_iff.mp hi
  have hsound := h.sweepers w₀ (List.mem_of_getElem? hw₀)
  split
  · exact hsound.stop
  · exact hsound

theorem keeps_spawn (scheduler : Scheduler) (batchSize : Nat) :
    Keeps st (st.spawn scheduler batchSize) := fun _ w hw =>
  ⟨w, List.getElem?_append_left (List.getElem?_eq_some_iff.mp hw).1 ▸ hw, List.prefix_rfl⟩

theorem keeps_stop (number : Nat) : Keeps st (st.stop number) := by
  intro i w hw
  refine ⟨_, by rw [Backstage.stop, List.getElem?_modify, hw]; rfl, ?_⟩
  split
  · exact List.prefix_append _ _
  · exact List.prefix_rfl

/-- **A step keeps what is true in the background**, and what was written down. -/
theorem Sound.step (h : st.Sound) (hstep : Step st st') : st'.Sound := by
  cases hstep with
  | sweeps hw hstep =>
    have hsound := (h.sweepers _ (List.mem_of_getElem? hw)).step h.filed hstep
    refine ⟨hstep.isFiled h.filed, fun w hw => ?_⟩
    rcases List.mem_or_eq_of_mem_set hw with hw | rfl
    · exact h.sweepers w hw
    · exact hsound
  | spawns scheduler batchSize => exact h.spawn scheduler batchSize
  | others hothers => exact ⟨h.filed.meanwhile hothers, h.sweepers⟩

theorem keeps_step (hstep : Step st st') : Keeps st st' := by
  cases hstep with
  | @sweeps number w w' s' hw hstep =>
    intro i v hv
    by_cases hi : number = i
    · subst hi
      cases hw.symm.trans hv
      have hlength := (List.getElem?_eq_some_iff.mp hw).1
      exact ⟨w', List.getElem?_set_self hlength, hstep.log_prefix⟩
    · exact ⟨v, (List.getElem?_set_ne hi).trans hv, List.prefix_rfl⟩
  | spawns scheduler batchSize => exact keeps_spawn scheduler batchSize
  | others _ => exact .refl st

theorem Sound.steps (h : st.Sound) (hsteps : Steps st st') : st'.Sound := by
  induction hsteps with
  | refl => exact h
  | tail _ hstep ih => exact ih.step hstep

theorem keeps_steps (hsteps : Steps st st') : Keeps st st' := by
  induction hsteps with
  | refl => exact .refl st
  | tail _ hstep ih => exact ih.trans (keeps_step hstep)

theorem Sound.answers (h : st.Sound) {e : Effect} {answer : e.Answer}
    (answered : Answers st e answer st') : st'.Sound := by
  cases answered with
  | spawns scheduler config => exact h.spawn scheduler config.batchSize
  | stops number _ _ others => exact (h.stop number).steps others
  | elsewhere _ _ answered => exact ⟨h.filed.answers answered, h.sweepers⟩

theorem keeps_answers {e : Effect} {answer : e.Answer} (answered : Answers st e answer st') :
    Keeps st st' := by
  cases answered with
  | spawns scheduler config => exact keeps_spawn scheduler config.batchSize
  | stops number _ _ others => exact (keeps_stop number).trans (keeps_steps others)
  | elsewhere _ _ _ => exact .refl st

/-- **What is true in the background stays true.** -/
theorem Sound.drifts (h : st.Sound) (hdrifts : surroundings.Drifts st st') : st'.Sound := by
  induction hdrifts with
  | refl => exact h
  | tail _ hmove ih =>
    rcases hmove with hsteps | ⟨e, answer, answered⟩
    · exact ih.steps hsteps
    · exact ih.answers answered

/-- **What was written down stays written down.** -/
theorem keeps_drifts (hdrifts : surroundings.Drifts st st') : Keeps st st' := by
  induction hdrifts with
  | refl => exact .refl st
  | tail _ hmove ih =>
    rcases hmove with hsteps | ⟨e, answer, answered⟩
    · exact ih.trans (keeps_steps hsteps)
    · exact ih.trans (keeps_answers answered)

/-! ### Undisturbed steps -/

theorem step_only {s s' : TaskStore} {w w' : Sweeper} (h : Sweeper.Step s w s' w') :
    Step ⟨s, [w]⟩ ⟨s', [w']⟩ :=
  @Step.sweeps ⟨s, [w]⟩ 0 w w' s' rfl h

/-- **The sweep of the only sweeper goes on** in its own turns, as long as its token is what it
is.

So a run of a sweep that was found on the store alone is a stretch of steps in the background. -/
theorem steps_of_leadsBy {s s' : TaskStore} {p p' : Work (Except Error SweepReport)}
    {turns : List (Turn TaskStore)}
    (h : Work.LeadsBy (TaskStore.shared True fun _ => True) s p turns p' s') {w : Sweeper}
    (hsweep : w.sweep = some p)
    (htoken : ∀ turn ∈ turns, ∀ cancelled, turn.deed.token? = some cancelled →
      cancelled = w.isStopped) :
    Steps ⟨s, [w]⟩ ⟨s', [{ w with sweep := some p', log := w.log ++ turns.map .took }]⟩ := by
  induction h generalizing w with
  | refl s p => rw [List.map_nil, List.append_nil, ← hsweep]
  | @ask e answer next p turns s s₁ s₂ s' others answered _ ih =>
    obtain ⟨hnow, hlater⟩ := List.forall_mem_cons.mp htoken
    let w₁ : Sweeper :=
      { w with sweep := some (next answer), log := w.log ++ [.took ⟨s₁, e, answer, s₂⟩] }
    have hasks : Sweeper.Step s₁ w s₂ w₁ := .asks hsweep answered hnow
    have hstopped : w₁.isStopped = w.isStopped := by
      simp [w₁, Sweeper.isStopped, Note.isStop]
    have hrest := ih (w := w₁) rfl (hstopped ▸ hlater)
    rw [List.append_assoc] at hrest
    exact .head (.others others) (.head (step_only hasks) hrest)

end Backstage

end Gathering
