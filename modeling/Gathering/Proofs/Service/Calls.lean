import Gathering.Proofs.Program.Log
import Gathering.Service

/-!
# The calls of a service

A service is started and shut down, any number of times and in any order, and each
start finds the cache well or not. What one call does is told in full
(`Service.CallRun`): a start asks for something only if the service is new, and a
shutdown only if it is running.

From there it is induction over the calls. A service starts one sweeper at most, and
does so exactly if it is started with the cache well before it is shut down
(`Service.History.spawned_of_fresh`). Whatever comes too late changes nothing
(`Service.History.pairwise`).

A call is answered among others, who go on while it waits. Which pings the cache
answers well is part of the call here, so that a sequence of calls says everything
that the service depends on.
-/

namespace Gathering

/-- Asks the cache whether it is there. -/
abbrev Effect.ping : Effect := .request (.cache .ping)

/-- The number of the sweeper that was started. -/
def Answered.spawned? : Answered → Option Nat
  | ⟨.startSweeper _ _, number⟩ => some number
  | _ => none

/-- **How a service may go on** from where it stands. -/
inductive ServiceState.Moves : ServiceState → ServiceState → Prop
  /-- A new one is started. -/
  | starts (sweeper : Nat) : Moves .fresh (.running sweeper)
  /-- A new one is shut down. -/
  | closes : Moves .fresh .closed
  /-- A running one is shut down. -/
  | stops (sweeper : Nat) : Moves (.running sweeper) .closed

namespace Service

/-- **A call of a service.** -/
inductive Call where
  /-- It is started, at a time when the cache answers a ping like this. -/
  | start (pong : Except Error Unit)
  /-- It is shut down. -/
  | shutdown

/-- Whether a call is a start. -/
def Call.isStart : Call → Bool
  | start _ => true
  | shutdown => false

/-- What was answered fits the call: a ping was answered as the cache answers then. -/
def Call.Meets : Call → Answered → Prop
  | start pong, d => ∀ pong', d = ⟨.ping, pong'⟩ → pong = pong'
  | shutdown, _ => True

/-- What the call does to a service, with the answer to the caller. A start that fails leaves the
service as it was. -/
def obey (s : Service) : Call → Work (Except Error Unit × Service)
  | .start _ => do
    match ← s.start.run with
    | .ok s' => return (.ok (), s')
    | .error e => return (.error e, s)
  | .shutdown => do return (.ok (), ← s.shutdown)

variable {σ : Type} {W : Surroundings σ} {s s' : Service} {c : Call} {st st' : σ}
  {turns : List (Turn σ)} {answer : Except Error Unit}

/-! ## One call

What the caller is told and what becomes of the service, by what the call finds. There are six
ways, and in three of them nothing is asked for. -/

/-- **What happens when a service is called.** -/
inductive CallRun (W : Surroundings σ) (s : Service) :
    Call → σ → List (Turn σ) → Except Error Unit → Service → σ → Prop
  /-- It is new, and the cache is not well. -/
  | refused {st st₁ st' : σ} {e : Error} (h : s.state = .fresh) (others : W.meanwhile st st₁)
      (pinged : W.answers st₁ .ping (.error e) st') :
      CallRun W s (.start (.error e)) st [⟨st₁, .ping, .error e, st'⟩] (.error e) s st'
  /-- It is new, and the cache is well. -/
  | started {st st₁ st₂ st₃ st' : σ} {number : Nat} (h : s.state = .fresh)
      (others : W.meanwhile st st₁) (pinged : W.answers st₁ .ping (.ok ()) st₂)
      (others' : W.meanwhile st₂ st₃)
      (spawned : W.answers st₃ (.startSweeper s.scheduler s.config.sweeper) number st') :
      CallRun W s (.start (.ok ())) st
        [⟨st₁, .ping, .ok (), st₂⟩,
          ⟨st₃, .startSweeper s.scheduler s.config.sweeper, number, st'⟩]
        (.ok ()) { s with state := .running number } st'
  /-- It is started, and not new any more. -/
  | startedAgain {pong : Except Error Unit} {st : σ} (h : s.state ≠ .fresh) :
      CallRun W s (.start pong) st [] (.ok ()) s st
  /-- It is new, and is shut down. -/
  | closed {st : σ} (h : s.state = .fresh) :
      CallRun W s .shutdown st [] (.ok ()) { s with state := .closed } st
  /-- It is running, and is shut down. -/
  | stopped {st st₁ st' : σ} {number : Nat} {ended : Bool} (h : s.state = .running number)
      (others : W.meanwhile st st₁)
      (told : W.answers st₁ (.stopSweeper number (some shutdownTimeout)) ended st') :
      CallRun W s .shutdown st
        [⟨st₁, .stopSweeper number (some shutdownTimeout), ended, st'⟩]
        (.ok ()) { s with state := .closed } st'
  /-- It is shut down once more. -/
  | closedAgain {st : σ} (h : s.state = .closed) : CallRun W s .shutdown st [] (.ok ()) s st

/-- **A service is called in this way.**

By the call and the state of the service, the program is a few effects long, and it is followed
answer by answer. -/
theorem runs_obey (run : Work.Runs W st (s.obey c) turns (answer, s') st')
    (hmeets : ∀ turn ∈ turns, c.Meets turn.deed) : CallRun W s c st turns answer s' st' := by
  obtain ⟨config, schedulerId, state⟩ := s
  cases c with
  | start pong =>
    cases state with
    | fresh =>
      obtain ⟨st₁, pong', st₂, rest, rfl, others, pinged, run⟩ := Work.runs_call_iff.mp run
      cases hmeets _ List.mem_cons_self pong' rfl
      cases pong with
      | error e =>
        obtain ⟨rfl, hresult, rfl⟩ := Work.runs_pure_iff.mp run
        cases hresult
        exact .refused rfl others pinged
      | ok _ =>
        obtain ⟨st₃, number, st₄, rest, rfl, others', spawned, run⟩ := Work.runs_call_iff.mp run
        obtain ⟨rfl, hresult, rfl⟩ := Work.runs_pure_iff.mp run
        cases hresult
        exact .started rfl others pinged others' spawned
    -- a service that is not fresh refuses to start again without asking for anything
    | running number | closed =>
      obtain ⟨rfl, hresult, rfl⟩ := Work.runs_pure_iff.mp run
      cases hresult
      exact .startedAgain (fun h => by cases h)
  | shutdown =>
    cases state with
    | fresh =>
      obtain ⟨rfl, hresult, rfl⟩ := Work.runs_pure_iff.mp run
      cases hresult
      exact .closed rfl
    | running number =>
      obtain ⟨st₁, ended, st₂, rest, rfl, others, told, run⟩ := Work.runs_call_iff.mp run
      obtain ⟨rfl, hresult, rfl⟩ := Work.runs_pure_iff.mp run
      cases hresult
      exact .stopped rfl others told
    | closed =>
      obtain ⟨rfl, hresult, rfl⟩ := Work.runs_pure_iff.mp run
      cases hresult
      exact .closedAgain rfl

/-- **A call that was made**, with all that it has done. -/
structure Done (σ : Type) where
  /-- The call. -/
  call : Call
  /-- The service before. -/
  before : Service
  /-- What was asked for. -/
  turns : List (Turn σ)
  /-- The answer to the caller. -/
  answer : Except Error Unit
  /-- The service after. -/
  after : Service

namespace Done

/-- **The call has changed nothing**, and the caller was told that all is well. -/
structure IsIdle (d : Done σ) : Prop where
  /-- Nothing was asked for. -/
  turns : d.turns = []
  /-- The service is as it was. -/
  after : d.after = d.before
  /-- The call has not failed. -/
  answer : d.answer = .ok ()

/-- The numbers of the sweepers that were started. -/
def spawned (d : Done σ) : List Nat := d.turns.filterMap (·.deed.spawned?)

end Done

namespace CallRun

/-- A call moves the service on, or leaves it where it stands; its settings stay. -/
theorem moves (run : CallRun W s c st turns answer s' st') :
    s' = { s with state := s'.state } ∧ Relation.ReflGen ServiceState.Moves s.state s'.state := by
  refine ⟨by cases run <;> rfl, ?_⟩
  cases run with
  | refused _ _ _ | startedAgain _ | closedAgain _ => exact .refl
  | started h _ _ _ _ => exact .single (h ▸ .starts _)
  | closed h => exact .single (h ▸ .closes)
  | stopped h _ _ => exact .single (h ▸ .stops _)

theorem state_ne_fresh (run : CallRun W s c st turns answer s' st') (h : s.state ≠ .fresh) :
    s'.state ≠ .fresh := by
  cases run with
  | refused h' _ _ => exact absurd h' h
  | startedAgain _ | closedAgain _ => exact h
  | started _ _ _ _ _ | closed _ | stopped _ _ _ => exact fun h => by cases h

theorem closed_of_shutdown (run : CallRun W s .shutdown st turns answer s' st') :
    s'.state = .closed := by
  cases run with
  | closed _ | stopped _ _ _ => rfl
  | closedAgain h => exact h

/-- **A service that is not new is not started again.** -/
theorem isIdle_of_start (run : CallRun W s c st turns answer s' st') (h : s.state ≠ .fresh)
    (hstart : c.isStart = true) : Done.IsIdle ⟨c, s, turns, answer, s'⟩ := by
  cases run with
  | refused h' _ _ | started h' _ _ _ _ => exact absurd h' h
  | startedAgain _ => exact ⟨rfl, rfl, rfl⟩
  | closed _ | stopped _ _ _ | closedAgain _ => cases hstart

/-- **A service that was shut down does nothing more.** -/
theorem isIdle_of_closed (run : CallRun W s c st turns answer s' st') (h : s.state = .closed) :
    Done.IsIdle ⟨c, s, turns, answer, s'⟩ := by
  cases run with
  | refused h' _ _ | started h' _ _ _ _ | closed h' | stopped h' _ _ => cases h.symm.trans h'
  | startedAgain _ | closedAgain _ => exact ⟨rfl, rfl, rfl⟩

/-- A service that is not new starts no sweeper. -/
theorem spawned_eq_nil (run : CallRun W s c st turns answer s' st') (h : s.state ≠ .fresh) :
    Done.spawned ⟨c, s, turns, answer, s'⟩ = [] := by
  cases run with
  | refused h' _ _ | started h' _ _ _ _ => exact absurd h' h
  | startedAgain _ | closed _ | stopped _ _ _ | closedAgain _ => rfl

/-- A service that runs has run before, or the call has started its sweeper. -/
theorem running {number : Nat} (run : CallRun W s c st turns answer s' st')
    (h : s'.state = .running number) :
    s.state = .running number ∨ number ∈ Done.spawned ⟨c, s, turns, answer, s'⟩ := by
  cases run with
  | refused _ _ _ | startedAgain _ | closedAgain _ => exact .inl h
  | started _ _ _ _ _ =>
    cases h
    exact .inr List.mem_cons_self
  | closed _ | stopped _ _ _ => cases h

/-- **A start that fails** is told to the caller and leaves the service as it was. -/
theorem of_refused {e : Error} (run : CallRun W s (.start (.error e)) st turns answer s' st')
    (h : s.state = .fresh) :
    answer = .error e ∧ s' = s ∧ Done.spawned ⟨.start (.error e), s, turns, answer, s'⟩ = [] := by
  cases run with
  | refused _ _ _ => exact ⟨rfl, rfl, rfl⟩
  | startedAgain h' => exact absurd h h'

/-- **A start that finds the cache well** starts the sweeper of a new service. -/
theorem of_started (run : CallRun W s (.start (.ok ())) st turns answer s' st')
    (h : s.state = .fresh) :
    answer = .ok () ∧ ∃ number, Done.spawned ⟨.start (.ok ()), s, turns, answer, s'⟩ = [number] ∧
      s'.state = .running number := by
  cases run with
  | started _ _ _ _ _ => exact ⟨rfl, _, rfl, rfl⟩
  | startedAgain h' => exact absurd h h'

end CallRun

/-! ## One call after another

The state of a service is one of three, and calls only move it on. So each of the statements below
is an induction over the calls in which the state at the beginning says what can still happen. -/

/-- **A history of a service**: one call after another. -/
inductive History (W : Surroundings σ) : Service → σ → List (Done σ) → Service → σ → Prop
  /-- No call is left, and others go on. -/
  | nil {s : Service} {st st' : σ} (others : W.meanwhile st st') : History W s st [] s st'
  /-- A call, and then the others. -/
  | cons {s s₁ s' : Service} {c : Call} {turns : List (Turn σ)} {answer : Except Error Unit}
      {dones : List (Done σ)} {st st₁ st₂ st' : σ} (others : W.meanwhile st st₁)
      (run : Work.Runs W st₁ (s.obey c) turns (answer, s₁) st₂)
      (hmeets : ∀ turn ∈ turns, c.Meets turn.deed) (rest : History W s₁ st₂ dones s' st') :
      History W s st (⟨c, s, turns, answer, s₁⟩ :: dones) s' st'

/-- The sweepers that the calls have started. -/
def spawned (dones : List (Done σ)) : List Nat := dones.flatMap Done.spawned

theorem spawned_cons (d : Done σ) (dones : List (Done σ)) :
    spawned (d :: dones) = d.spawned ++ spawned dones :=
  List.flatMap_cons

/-- **The calls bring the service up**: it is started with the cache well, and not shut down
before. -/
def BringUp (calls : List Call) : Prop :=
  ∃ before after, calls = before ++ .start (.ok ()) :: after ∧ .shutdown ∉ before

/-- The first call brings the service up, or it does not end it and the others bring it up. -/
theorem bringUp_cons_iff {calls : List Call} :
    BringUp (c :: calls) ↔ c = .start (.ok ()) ∨ c ≠ .shutdown ∧ BringUp calls := by
  constructor
  · rintro ⟨before, after, hcalls, hbefore⟩
    cases before with
    | nil =>
      cases hcalls
      exact .inl rfl
    | cons c' before =>
      cases hcalls
      have hne : .shutdown ≠ c := List.ne_of_not_mem_cons hbefore
      exact .inr ⟨hne.symm, before, after, rfl, List.not_mem_of_not_mem_cons hbefore⟩
  · rintro (rfl | ⟨hne, before, after, rfl, hbefore⟩)
    · exact ⟨[], calls, rfl, List.not_mem_nil⟩
    · exact ⟨c :: before, after, rfl, List.not_mem_cons_of_ne_of_not_mem hne.symm hbefore⟩

namespace History

variable {dones : List (Done σ)}

/-- **Every call of a history happens in the way of a call.** -/
theorem callRun (history : History W s st dones s' st') :
    ∀ d ∈ dones, ∃ st st', CallRun W d.before d.call st d.turns d.answer d.after st' := by
  induction history with
  | nil _ => exact fun _ h => by cases h
  | cons _ run hmeets _ ih => exact List.forall_mem_cons.mpr ⟨⟨_, _, runs_obey run hmeets⟩, ih⟩

/-- Starts of a service that is not new change nothing. -/
theorem isIdle_of_start (history : History W s st dones s' st') (h : s.state ≠ .fresh) :
    ∀ d ∈ dones, d.call.isStart = true → d.IsIdle := by
  induction history with
  | nil _ => exact fun _ h => by cases h
  | cons _ run hmeets _ ih =>
    have run := runs_obey run hmeets
    exact List.forall_mem_cons.mpr ⟨run.isIdle_of_start h, ih (run.state_ne_fresh h)⟩

/-- Calls of a service that was shut down change nothing. -/
theorem isIdle_of_closed (history : History W s st dones s' st') (h : s.state = .closed) :
    ∀ d ∈ dones, d.IsIdle := by
  induction history with
  | nil _ => exact fun _ h => by cases h
  | cons _ run hmeets _ ih =>
    have hidle := (runs_obey run hmeets).isIdle_of_closed h
    exact List.forall_mem_cons.mpr ⟨hidle, ih ((congrArg Service.state hidle.after).trans h)⟩

/-- A service that is not new starts no sweeper. -/
theorem spawned_eq_nil (history : History W s st dones s' st') (h : s.state ≠ .fresh) :
    spawned dones = [] := by
  induction history with
  | nil _ => rfl
  | cons _ run hmeets _ ih =>
    have run := runs_obey run hmeets
    exact List.append_eq_nil_iff.mpr ⟨run.spawned_eq_nil h, ih (run.state_ne_fresh h)⟩

/-- **A new service starts one sweeper at most**, and one exactly if the calls bring it up.

By induction on the calls. As long as the service is new no sweeper was started, and when one is,
or the service is shut down, it is new no more, and nothing starts another. -/
theorem spawned_of_fresh (history : History W s st dones s' st') (h : s.state = .fresh) :
    (spawned dones).length ≤ 1 ∧ (spawned dones ≠ [] ↔ BringUp (dones.map (·.call))) := by
  induction history with
  | nil _ =>
    refine ⟨Nat.zero_le 1, fun h => absurd rfl h, ?_⟩
    rintro ⟨before, after, hcalls, _⟩
    simp at hcalls
  | cons _ run hmeets rest ih =>
    rw [List.map_cons, bringUp_cons_iff, spawned_cons]
    cases runs_obey run hmeets with
    | refused _ _ _ => simpa [Done.spawned, Turn.deed, Answered.spawned?] using ih h
    | started _ _ _ _ _ =>
      rw [rest.spawned_eq_nil fun h => by cases h]
      simp [Done.spawned, Turn.deed, Answered.spawned?]
    | startedAgain h' => exact absurd h h'
    | closed _ =>
      rw [rest.spawned_eq_nil fun h => by cases h]
      simp [Done.spawned]
    | stopped h' _ _ | closedAgain h' => cases h.symm.trans h'

/-- **What comes too late changes nothing**: a start after the service was new, and anything after
a shutdown.

Stated of every two calls of the history, the earlier one and the later one. -/
theorem pairwise (history : History W s st dones s' st') :
    dones.Pairwise fun d d' =>
      (d.after.state ≠ .fresh → d'.call.isStart = true → d'.IsIdle) ∧
        (d.call = .shutdown → d'.IsIdle) := by
  induction history with
  | nil _ => exact .nil
  | cons _ run hmeets rest ih =>
    refine .cons (fun d hd => ⟨fun h => rest.isIdle_of_start h d hd, fun hcall => ?_⟩) ih
    cases hcall
    exact rest.isIdle_of_closed (runs_obey run hmeets).closed_of_shutdown d hd

/-- **A service only moves on**, from where it stands to where each call leaves it. -/
theorem isChain (history : History W s st dones s' st') :
    List.IsChain (Relation.ReflGen ServiceState.Moves)
      (s.state :: dones.map (·.after.state)) := by
  induction history with
  | nil _ => exact .singleton _
  | cons _ run hmeets _ ih => exact .cons_cons (runs_obey run hmeets).moves.2 ih

/-- A service that was new runs with a sweeper that it has started. -/
theorem mem_spawned_of_running (history : History W s st dones s' st') :
    ∀ d ∈ dones, ∀ number, d.before.state = .running number →
      s.state = .running number ∨ number ∈ spawned dones := by
  induction history with
  | nil _ => exact fun _ h => by cases h
  | cons _ run hmeets _ ih =>
    refine List.forall_mem_cons.mpr ⟨fun _ => .inl, fun d hd number hrunning => ?_⟩
    rw [spawned_cons]
    rcases ih d hd number hrunning with h | h
    · exact ((runs_obey run hmeets).running h).imp_right (List.mem_append_left _)
    · exact .inr (List.mem_append_right _ h)

theorem drifts (history : History W s st dones s' st') : W.Drifts st st' := by
  induction history with
  | nil others => exact .single (.inl others)
  | cons others run _ _ ih => exact .head (.inl others) (run.drifts.trans ih)

end History

/-! ## Every sequence of calls has a history

It is not enough that all histories are as they should be: there has to be one for every sequence
of calls. A program that cannot get stuck has a run, and the surroundings are such that every
effect is answered, a ping as the call says. -/

/-- Where only what fits a call is answered. -/
def fitting (W : Surroundings σ) (c : Call) : Surroundings σ where
  answers st e answer st' := W.answers st e answer st' ∧ c.Meets ⟨e, answer⟩
  meanwhile := W.meanwhile

/-- **A call can be made** where the cache can answer a ping in any way. -/
theorem exists_runs_obey (hmeanwhile : ∀ st, W.meanwhile st st)
    (hping : ∀ st pong, ∃ st', W.answers st .ping pong st')
    (hanswers : ∀ st e, ∃ answer st', W.answers st e answer st') (s : Service) (c : Call) (st : σ) :
    ∃ turns r st', Work.Runs W st (s.obey c) turns r st' ∧ ∀ turn ∈ turns, c.Meets turn.deed := by
  have hfitting : ∀ st e, ∃ answer st', (fitting W c).answers st e answer st' := by
    intro st e
    cases c with
    | shutdown =>
      obtain ⟨answer, st', h⟩ := hanswers st e
      exact ⟨answer, st', h, trivial⟩
    | start pong =>
      by_cases he : e = .ping
      · subst he
        obtain ⟨st', h⟩ := hping st pong
        exact ⟨pong, st', h, fun _ h => by cases h; rfl⟩
      · obtain ⟨answer, st', h⟩ := hanswers st e
        exact ⟨answer, st', h, fun _ h => absurd (congrArg Answered.effect h) he⟩
  obtain ⟨turns, r, st', run⟩ :=
    Work.exists_runs (W := fitting W c) (fun st => ⟨st, hmeanwhile st⟩) hfitting (s.obey c) st
  exact ⟨turns, r, st', run.mono (fun _ _ h => h) (fun _ _ _ _ h => h.1),
    fun turn hturn => (run.answered turn hturn).2⟩

/-- **Every sequence of calls has a history**, whatever the cache answers at each start. -/
theorem exists_history (hmeanwhile : ∀ st, W.meanwhile st st)
    (hping : ∀ st pong, ∃ st', W.answers st .ping pong st')
    (hanswers : ∀ st e, ∃ answer st', W.answers st e answer st') (s : Service) (st : σ)
    (calls : List Call) :
    ∃ dones s' st', History W s st dones s' st' ∧ dones.map (·.call) = calls := by
  induction calls generalizing s st with
  | nil => exact ⟨[], s, st, .nil (hmeanwhile st), rfl⟩
  | cons c calls ih =>
    obtain ⟨turns, ⟨answer, s₁⟩, st₁, run, hmeets⟩ :=
      exists_runs_obey hmeanwhile hping hanswers s c st
    obtain ⟨dones, s', st', rest, rfl⟩ := ih s₁ st₁
    exact ⟨_, s', st', .cons (hmeanwhile st) run hmeets rest, rfl⟩

end Service

end Gathering
