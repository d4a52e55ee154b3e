import Gathering.Proofs.Scheduler.Accounting
import Gathering.Proofs.Scheduler.Making

/-!
# The attempts at a task

One sweeper that sweeps again and again, over a store whose calls do not fail and
where nobody else touches the task, tries a task until an attempt succeeds, until
one fails for good, or until there are no attempts left. What the attempts have
come to is then all that there is to know about the task: its status, the number
of its retries and its error follow from the outcomes (`Task.Stands`).

An attempt takes a task from one standing to the next (`Scheduler.visit_rests`).
The sweeper holds the task from its claim to its settlement, so what it settles is
what it has claimed. Everything else leaves the task alone.

What the attempts themselves come to is left open throughout. An outcome is any
value that an execution may end with, so nothing is assumed of events, participants
or the gateway.
-/

namespace Gathering

/-! ## Outcomes

The standing of a task by the outcomes of its attempts is an inductive with one constructor for
each way in which attempts can go on or end. The lemmas below say what a transition of the task
does to it: a success or a failure adds an outcome, a lease adds none. -/

/-- Whether an attempt has failed in a way that another one may not. -/
def IsTransient (outcome : Except Error Unit) : Prop :=
  ∃ e, outcome = .error e ∧ e.isTransient = true

/-- What the last of the attempts has reported. -/
def lastMessage (outcomes : List (Except Error Unit)) : Option String :=
  outcomes.getLast?.bind fun
    | .ok () => none
    | .error e => some e.message

theorem lastMessage_concat (outcomes : List (Except Error Unit)) (e : Error) :
    lastMessage (outcomes ++ [.error e]) = some e.message := by
  simp [lastMessage]

/-- **What attempts have made of a task** that had so many of them, by their outcomes. -/
inductive Task.Stands (m : Nat) : List (Except Error Unit) → Task → Prop
  /-- All have failed, and there are some left. -/
  | open_ {outcomes : List (Except Error Unit)} {t : Task}
      (transient : ∀ o ∈ outcomes, IsTransient o)
      (left : outcomes.length < m) (limit : t.maxRetries = m) (status : t.status = .pending)
      (retries : t.retries = outcomes.length) (message : t.errorMessage = lastMessage outcomes) :
      Stands m outcomes t
  /-- The last one has succeeded. -/
  | processed {early : List (Except Error Unit)} {t : Task} (transient : ∀ o ∈ early, IsTransient o)
      (left : early.length < m) (status : t.status = .processed)
      (retries : t.retries = early.length) :
      Stands m (early ++ [.ok ()]) t
  /-- The last one has failed for good, or there are none left. -/
  | failed {early : List (Except Error Unit)} {e : Error} {t : Task}
      (transient : ∀ o ∈ early, IsTransient o) (left : early.length < m)
      (last : e.isTransient = true → early.length + 1 = m) (status : t.status = .failed)
      (retries : t.retries = early.length) (message : t.errorMessage = some e.message) :
      Stands m (early ++ [.error e]) t

namespace Task.Stands

variable {m : Nat} {outcomes : List (Except Error Unit)} {t t' : Task}

theorem of_pending (h : t.Stands m outcomes) (hpending : t.status = .pending) :
    (∀ o ∈ outcomes, IsTransient o) ∧ outcomes.length < m ∧ t.maxRetries = m ∧
      t.retries = outcomes.length ∧ t.errorMessage = lastMessage outcomes := by
  cases h with
  | open_ transient left limit _ retries message => exact ⟨transient, left, limit, retries, message⟩
  | processed _ _ status _ => rw [status] at hpending; cases hpending
  | failed _ _ _ status _ _ => rw [status] at hpending; cases hpending

theorem with_lease (h : t.Stands m outcomes) (hpending : t.status = .pending)
    (holder : Option String) (deadline : Option Instant) (now : Instant) :
    Task.Stands m outcomes
      { t with claimedBy := holder, claimedUntil := deadline, updatedAt := now } := by
  obtain ⟨transient, left, limit, retries, message⟩ := h.of_pending hpending
  exact .open_ transient left limit hpending retries message

theorem process (h : t.Stands m outcomes) (hpending : t.status = .pending) (now : Instant) :
    (t.finish .processed none now).Stands m (outcomes ++ [.ok ()]) := by
  obtain ⟨transient, left, _, retries, _⟩ := h.of_pending hpending
  exact .processed transient left rfl retries

theorem fail (h : t.Stands m outcomes) (hpending : t.status = .pending) {e : Error}
    (hlast : (e.isFinal || t.isLastAttempt) = true) (now : Instant) :
    (t.finish .failed (some e.message) now).Stands m (outcomes ++ [.error e]) := by
  obtain ⟨transient, left, limit, retries, _⟩ := h.of_pending hpending
  refine .failed transient left (fun htransient => ?_) rfl retries rfl
  have hlast : t.isLastAttempt = true := by simpa [Error.isFinal, htransient] using hlast
  have hle : t.maxRetries ≤ t.retries + 1 := of_decide_eq_true hlast
  omega

theorem retry (h : t.Stands m outcomes) (hpending : t.status = .pending) {e : Error}
    (hleft : (e.isFinal || t.isLastAttempt) = false) (now : Instant) :
    Task.Stands m (outcomes ++ [.error e])
      { t with
        retries := t.retries + 1
        errorMessage := some e.message
        claimedBy := none
        claimedUntil := none
        updatedAt := now } := by
  obtain ⟨transient, left, limit, retries, _⟩ := h.of_pending hpending
  obtain ⟨hfinal, hlast⟩ := Bool.or_eq_false_iff.mp hleft
  have htransient : IsTransient (.error e) := ⟨e, rfl, by simpa [Error.isFinal] using hfinal⟩
  have hlt : ¬ t.maxRetries ≤ t.retries + 1 := of_decide_eq_false hlast
  refine .open_ ?_ ?_ limit hpending ?_ (lastMessage_concat outcomes e).symm
  · exact List.forall_mem_append.mpr ⟨transient, List.forall_mem_singleton.mpr htransient⟩
  · rw [List.length_append, List.length_singleton]
    omega
  · rw [List.length_append, List.length_singleton, ← retries]

end Task.Stands

/-- The attempt at a task in a visit. -/
def Visit.outcome? (x : String) : Visit → Option (Except Error Unit)
  | .attempted claimed outcome _ => if claimed.id = x then some outcome else none
  | _ => none

/-- **The attempts at a task**, in all that sweeps have told. -/
def Scheduler.outcomes (x : String) (told : List (Except Error (List Task × List Visit))) :
    List (Except Error Unit) :=
  told.flatMap fun
    | .ok (_, vs) => vs.filterMap (·.outcome? x)
    | .error _ => []

/-! ## A task that nobody else touches

Others may do anything to other tasks. For the task itself this means that its row changes only in
a turn of the sweeper, so that between two such turns nothing has to be said of it
(`find?_of_runs`). -/

namespace TaskStore

variable {s s' : TaskStore} {x : String} {m : Nat} {outcomes : List (Except Error Unit)}

/-- **A store whose calls do not fail**, and where others leave one task alone. -/
def alone (x : String) : Surroundings TaskStore := shared False fun e => e.changes x = false

theorem find?_of_meanwhile (h : (alone x).meanwhile s s') : s'.find? x = s.find? x := by
  obtain ⟨entries, hhistory, hkept⟩ := h
  exact hhistory.find?_eq hkept

theorem find?_of_told {now : Instant} {s₁ s₂ : TaskStore} (others : (alone x).meanwhile s s₁)
    (told : (alone x).answers s₁ (.request .now) now s₂) (others' : (alone x).meanwhile s₂ s') :
    s'.find? x = s.find? x :=
  (find?_of_meanwhile others').trans
    ((Answers.find?_of_ne told nofun).trans (find?_of_meanwhile others))

/-- A program that does not ask for changes of the task leaves it alone. -/
theorem find?_of_runs {α : Type} {p : Work α} {turns : List (Turn TaskStore)} {a : α}
    (run : Work.Runs (alone x) s p turns a s')
    (hturns : ∀ turn ∈ turns, turn.effect.subject? ≠ some x) : s'.find? x = s.find? x := by
  induction run with
  | done a s => rfl
  | ask others answered _ ih =>
    obtain ⟨hfirst, hrest⟩ := List.forall_mem_cons.mp hturns
    rw [ih hrest, Answers.find?_of_ne answered hfirst, find?_of_meanwhile others]

/-- **The task rests between attempts**: it stands as these have made it, and nobody holds it. -/
def Rests (x : String) (m : Nat) (outcomes : List (Except Error Unit)) (s : TaskStore) : Prop :=
  ∃ t, s.find? x = some t ∧ t.Stands m outcomes ∧
    (t.status = .pending → t.claimedBy = none ∧ t.claimedUntil = none)

/-- **The task is being attempted**: it stands as earlier attempts have made it, and it is held. -/
def Attempted (x owner : String) (m : Nat) (outcomes : List (Except Error Unit)) (s : TaskStore) :
    Prop :=
  ∃ t, s.find? x = some t ∧ t.Stands m outcomes ∧ t.status = .pending ∧ t.claimedBy = some owner

theorem Rests.congr (h : Rests x m outcomes s) (hx : s'.find? x = s.find? x) :
    Rests x m outcomes s' := by
  unfold Rests
  rw [hx]
  exact h

theorem Rests.of_transition {call : Call} {now : Instant} {change : Task → Option Task}
    {f : Option Task → call.Answer} {t t' : Task}
    (hperform : s.perform now call = (s.transition x change).map fun r => (f r.1, r.2))
    (hrow : s.find? x = some t) (hchange : change t = some t') (hstands : t'.Stands m outcomes)
    (hfree : t'.claimedBy = none ∧ t'.claimedUntil = none) :
    Rests x m outcomes (s.respond now call).2 :=
  ⟨t', (respond_of_transition hperform hrow hchange).2, hstands, fun _ => hfree⟩

theorem Attempted.congr {owner : String} (h : Attempted x owner m outcomes s)
    (hx : s'.find? x = s.find? x) : Attempted x owner m outcomes s' := by
  unfold Attempted
  rw [hx]
  exact h

end TaskStore

namespace Scheduler

open TaskStore (shared alone IsFiled Rests Attempted find?_of_meanwhile find?_of_told find?_of_runs)

variable {s : Scheduler} {x : String} {m : Nat} {os : List (Except Error Unit)}
  {s₁ s₂ : TaskStore} {task claimed : Task} {turns : List (Turn TaskStore)}

/-- **A task stays held while it is executed**, and stands where it stood.

An execution may ask for the time, for events and participants, for sends, and for an extension of
the lease on its own task. Only the last one writes to the row, and it writes a deadline. -/
theorem execute_attempted {outcome : Except Error Unit}
    (run : Work.Runs (alone claimed.id) s₁ (s.execute claimed).run turns outcome s₂)
    (h : Attempted claimed.id s.id m os s₁) : Attempted claimed.id s.id m os s₂ := by
  have hkept := run.keeps (I := fun _ st => Attempted claimed.id s.id m os st)
    (execute_executing s claimed) (fun _ _ _ h others => h.congr (find?_of_meanwhile others))
  refine (hkept ?_ h).1.elim fun _ hend => hend.2
  intro _ st e answer st' hallows h answered
  cases hallows with
  | extendLease deadline =>
    obtain ⟨t, hrow, hstands, hpending, hheld⟩ := h
    obtain ⟨now, hmoves⟩ := TaskStore.Answers.moves answered claimed.id
    rw [hrow] at hmoves
    generalize hrow' : st'.find? claimed.id = row' at hmoves
    cases hmoves with
    | kept _ => exact ⟨t, hrow', hstands, hpending, hheld⟩
    | extended h =>
      obtain ⟨_, rfl⟩ := Task.extendLease?_eq_some_iff.mp h
      exact ⟨_, hrow', hstands.with_lease hpending t.claimedBy _ t.updatedAt, hpending, hheld⟩
  | now => exact h.congr (TaskStore.Answers.find?_of_ne answered nofun)
  | roster call => exact h.congr (TaskStore.Answers.find?_of_ne answered nofun)
  | fanOut batch => exact h.congr (TaskStore.Answers.find?_of_ne answered nofun)

/-- **A settlement takes the task to its next standing**, and releases it. -/
theorem settle_rests {outcome : Except Error Unit} {settled : Except Error Settlement}
    (run : Work.Runs (alone claimed.id) s₁ (s.settle claimed outcome).run turns settled s₂)
    (hclaimed : claimed.Stands m os) (hpending : claimed.status = .pending)
    (h : Attempted claimed.id s.id m os s₁) : Rests claimed.id m (os ++ [outcome]) s₂ := by
  obtain ⟨st₁, now, st₂, st₃, answer, others, told, others', answered, -, -⟩ := runs_settle run
  obtain ⟨t, hrow, hstands, hwaits, hheld⟩ : Attempted claimed.id s.id m os st₃ :=
    h.congr (find?_of_told others told others')
  have hsettleable : t.isSettleableBy s.id = true := by
    refine Task.isSettleableBy_iff.mpr ⟨hwaits, fun holder hholder => ?_⟩
    rw [hheld] at hholder
    exact (Option.some_inj.mp hholder).symm
  cases outcome with
  | ok _ =>
    obtain ⟨at_, -, rfl⟩ := TaskStore.Answers.eq_respond answered
    exact .of_transition (f := Option.isSome) rfl hrow
      (Task.process?_eq_some_iff.mpr ⟨hsettleable, rfl⟩) (hstands.process hwaits now) ⟨rfl, rfl⟩
  | error e =>
    -- the decision was made on the task as it was claimed, which stands where this one stands
    have hsame : claimed.isLastAttempt = t.isLastAttempt := by
      obtain ⟨_, _, hlimit, hretries, _⟩ := hclaimed.of_pending hpending
      obtain ⟨_, _, hlimit', hretries', _⟩ := hstands.of_pending hwaits
      unfold Task.isLastAttempt
      rw [hlimit, hretries, hlimit', hretries']
    revert answer
    cases hlast : e.isFinal || claimed.isLastAttempt with
    | true =>
      rw [settling_of_last hlast]
      intro answer answered
      obtain ⟨at_, -, rfl⟩ := TaskStore.Answers.eq_respond answered
      rw [hsame] at hlast
      exact .of_transition (f := Option.isSome) rfl hrow
        (Task.fail?_eq_some_iff.mpr ⟨hsettleable, rfl⟩) (hstands.fail hwaits hlast now) ⟨rfl, rfl⟩
    | false =>
      rw [settling_of_left hlast]
      intro answer answered
      obtain ⟨at_, -, rfl⟩ := TaskStore.Answers.eq_respond answered
      rw [hsame] at hlast
      exact .of_transition (f := Option.map (·.retries)) rfl hrow
        (Task.failedAttempt?_eq_some_iff.mpr ⟨hsettleable, rfl⟩) (hstands.retry hwaits hlast at_)
        ⟨rfl, rfl⟩

/-- **A claim that is granted takes a task that rests to its attempt**, and gives the task. -/
theorem attempted_of_claim {now deadline : Instant}
    (answered : (alone x).answers s₁ (.request (.tasks (.claim x s.id deadline now)))
      (.ok (some claimed)) s₂) (h : Rests x m os s₁) :
    Attempted x s.id m os s₂ ∧ claimed.Stands m os ∧ claimed.status = .pending := by
  obtain ⟨t, hrow, hstands, _⟩ := h
  obtain ⟨at_, hmoves⟩ := TaskStore.Answers.moves answered x
  rw [hrow] at hmoves
  generalize hrow' : s₂.find? x = row' at hmoves
  cases hmoves with
  | kept h => simp [TaskStore.Entry.changes] at h
  | claimed hclaim =>
    obtain ⟨hclaimable, rfl⟩ := Task.claim?_eq_some_iff.mp hclaim
    have hpending := (Task.isClaimable_iff.mp hclaimable).1
    have hstands := hstands.with_lease hpending (some s.id) (some deadline) now
    exact ⟨⟨_, hrow', hstands, hpending, rfl⟩, hstands, hpending⟩

/-- **A visit leaves a task that rests at rest**, with one more attempt if this was executed.

If the visit is about the task, it is refused, or the task is claimed, executed and settled, one
after the other (`attempted_of_claim`, `execute_attempted`, `settle_rests`). A visit to another
task does not change this one. -/
theorem visit_rests {v : Visit} (hfiled : IsFiled s₁)
    (run : Work.Runs (alone x) s₁ (s.visit task) turns v s₂) (h : Rests x m os s₁) :
    Rests x m (os ++ (v.outcome? x).toList) s₂ := by
  by_cases hx : task.id = x
  · subst hx
    cases runs_visit run with
    | unclaimed others told others' answered visited =>
      have h := h.congr (find?_of_told others told others')
      obtain ⟨at_, hmoves⟩ := TaskStore.Answers.moves answered task.id
      obtain ⟨e, rfl, rfl⟩ | ⟨rfl, rfl⟩ := visited
      all_goals
        rw [show (Visit.outcome? task.id _).toList = [] from rfl, List.append_nil]
        exact h.congr (hmoves.eq_of_changes rfl)
    | attempted others told others' answered executed settledRun =>
      have h := h.congr (find?_of_told others told others')
      have hid :=
        id_of_claimed (((hfiled.meanwhile others).answers told).meanwhile others') answered
      obtain ⟨hattempted, hstands, hpending⟩ := attempted_of_claim answered h
      rw [← hid] at executed settledRun hattempted ⊢
      rw [show (Visit.outcome? _ (.attempted _ _ _)).toList = _ from
        congrArg Option.toList (if_pos rfl)]
      exact settle_rests settledRun hstands hpending (execute_attempted executed hattempted)
  · -- the visit is about another task
    obtain ⟨hexecuted, hsubject⟩ := visit_subject hfiled run
    have hnone : v.outcome? x = none := by
      cases v with
      | attempted claimed outcome settled =>
        exact if_neg fun h => hx ((hexecuted claimed.id rfl).symm.trans h)
      | _ => rfl
    rw [hnone, Option.toList_none, List.append_nil]
    exact h.congr (find?_of_runs run fun turn hmem hsome =>
      hx (hsubject turn hmem x hsome).symm)

/-- Visits leave a task that rests at rest, with one more attempt for each that was executed.

By induction on the visits, with the outcomes of those that came first put in front. -/
theorem visits_rests {tasks : List Task} {vs : List Visit} (hfiled : IsFiled s₁)
    (run : Work.Runs (alone x) s₁ (s.visits tasks) turns vs s₂) (h : Rests x m os s₁) :
    Rests x m (os ++ vs.filterMap (·.outcome? x)) s₂ := by
  replace run := runs_visits run
  induction run generalizing os with
  | nil =>
    rw [List.filterMap_nil, List.append_nil]
    exact h
  | calledOff others told =>
    rw [List.filterMap_nil, List.append_nil]
    exact (h.congr (find?_of_meanwhile others)).congr (TaskStore.Answers.find?_of_ne told nofun)
  | @visited _ _ _ _ _ _ _ v vs _ _ others told visit _ ih =>
    have hfiled := (hfiled.meanwhile others).answers told
    have h := (h.congr (find?_of_meanwhile others)).congr
      (TaskStore.Answers.find?_of_ne told nofun)
    have hcons : (v :: vs).filterMap (·.outcome? x) =
        (v.outcome? x).toList ++ vs.filterMap (·.outcome? x) := by
      rw [List.filterMap_cons]
      cases v.outcome? x <;> rfl
    rw [hcons, ← List.append_assoc]
    exact ih (hfiled.runs visit) (visit_rests hfiled visit h)

/-! ## One sweep after another

A sweep is told by its chronicle, and sweeps one after the other by one chronicle for each. The
outcomes of all of them are the outcomes of each in turn, so that the induction over the sweeps is
one over their list. -/

/-- **Sweeps one after another**, of so many tasks each. -/
def sweeps (s : Scheduler) (limits : List Nat) : Work (List (Except Error SweepReport)) :=
  limits.mapM fun limit => (s.sweep limit).run

/-- The same sweeps, which tell what they have done. -/
def chronicles (s : Scheduler) (limits : List Nat) :
    Work (List (Except Error (List Task × List Visit))) :=
  limits.mapM fun limit => (s.chronicle limit).run

/-- **Sweeps are their chronicles, of which only the numbers are kept.** -/
theorem sweeps_eq (s : Scheduler) (limits : List Nat) :
    s.sweeps limits = List.map (Except.map SweepReport.tally) <$> s.chronicles limits := by
  unfold sweeps chronicles
  induction limits with
  | nil => rfl
  | cons limit limits ih =>
    rw [List.mapM_cons, List.mapM_cons, ih, sweep_eq]
    simp only [bind_map_left, map_bind, map_pure, List.map_cons]

/-- A sweep leaves a task that rests at rest, with the attempts that were made. -/
theorem chronicle_rests {limit : Nat} {result : Except Error (List Task × List Visit)}
    (hfiled : IsFiled s₁) (run : Work.Runs (alone x) s₁ (s.chronicle limit).run turns result s₂)
    (h : Rests x m os s₁) : Rests x m (os ++ outcomes x [result]) s₂ := by
  cases runs_chronicle run with
  | failed others told others' listed =>
    rw [show outcomes x [.error _] = [] from rfl, List.append_nil]
    exact h.congr ((TaskStore.Answers.find?_of_ne listed nofun).trans
      (find?_of_told others told others'))
  | visited others told others' listed visits =>
    have hfiled := (((hfiled.meanwhile others).answers told).meanwhile others').answers listed
    have houtcomes (due : List Task) (vs : List Visit) :
        outcomes x [.ok (due, vs)] = vs.filterMap (·.outcome? x) := by
      simp [outcomes]
    rw [houtcomes]
    exact visits_rests hfiled visits (h.congr ((TaskStore.Answers.find?_of_ne listed nofun).trans
      (find?_of_told others told others')))

/-- **Sweeps leave a task that rests at rest**, with all the attempts that were made. -/
theorem chronicles_rests {limits : List Nat} {told : List (Except Error (List Task × List Visit))}
    (hfiled : IsFiled s₁) (run : Work.Runs (alone x) s₁ (s.chronicles limits) turns told s₂)
    (h : Rests x m os s₁) : Rests x m (os ++ outcomes x told) s₂ := by
  unfold chronicles at run
  induction limits generalizing s₁ os turns told with
  | nil =>
    obtain ⟨rfl, rfl, rfl⟩ := Work.runs_pure_iff.mp run
    exact (List.append_nil os).symm ▸ h
  | cons limit limits ih =>
    rw [List.mapM_cons] at run
    obtain ⟨first, rest, result, st₃, rfl, swept, run⟩ := Work.runs_bind_iff.mp run
    obtain ⟨later, rest, told, st₄, rfl, others, run⟩ := Work.runs_bind_iff.mp run
    obtain ⟨rfl, rfl, rfl⟩ := Work.runs_pure_iff.mp run
    have hcons : outcomes x (result :: told) = outcomes x [result] ++ outcomes x told := by
      simp [outcomes]
    rw [hcons, ← List.append_assoc]
    exact ih (hfiled.runs swept) others (chronicle_rests hfiled swept h)

/-- **A task that was made rests**, without any attempts.

The store may fail the making of the task, and others may do anything meanwhile. If the task was
made nevertheless, it was added in the last turn, under an identifier that was new to the
store. -/
theorem create_rests {mayFail : Prop} {others : TaskStore.Entry → Prop} {draft : TaskDraft}
    {t : Task}
    (run : Work.Runs (shared mayFail others) s₁ (s.create draft).run turns (.ok t) s₂) :
    Rests t.id t.maxRetries [] s₂ := by
  unfold create at run
  obtain ⟨_, now, _, rest, rfl, _, _, run⟩ := Work.runs_call_iff.mp run
  cases hcheck : draft.check s.config.maxRetries with
  | error e =>
    rw [hcheck] at run
    cases (Work.runs_pure_iff.mp run).2.1
  | ok sound =>
    rw [hcheck] at run
    obtain ⟨_, id, _, rest, rfl, _, _, run⟩ := Work.runs_call_iff (e := .request .freshId).mp run
    obtain ⟨st, answer, st', rest, rfl, _, inserted, run⟩ :=
      Work.runs_call_iff (e := .request (.tasks (.insert (draft.toTask sound id now)))).mp run
    cases answer with
    | error e => cases (Work.runs_pure_iff.mp run).2.1
    | ok _ =>
      obtain ⟨rfl, ht, rfl⟩ := Work.runs_pure_iff.mp run
      obtain rfl := Except.ok.inj ht
      obtain ⟨_, hmoves⟩ := inserted.moves (draft.toTask sound id now).id
      -- the identifier was free, as the call has succeeded, so that the task is the one that was
      -- added
      generalize st.find? (draft.toTask sound id now).id = row at hmoves
      generalize hrow : s₂.find? (draft.toTask sound id now).id = row' at hmoves
      cases hmoves with
      | kept h => simp [TaskStore.Entry.changes] at h
      | inserted _ =>
        have hpos := TaskDraft.maxRetries_pos_of_check hcheck
        exact ⟨_, hrow, .open_ (fun _ h => by cases h) hpos rfl rfl rfl rfl, fun _ => ⟨rfl, rfl⟩⟩

end Scheduler

/-- **What there is to say about a task** that has so many attempts, after some of them.

Each field has the form "if the outcomes are such, then the task is such". Together they are about
all lists of outcomes that can occur: all failures are transient, or one outcome is the first that
is not. -/
structure Task.IsAccountedFor (m : Nat) (outcomes : List (Except Error Unit)) (t : Task) :
    Prop where
  /-- It is attempted at most as often as it may be. -/
  length_le : outcomes.length ≤ m
  /-- As long as all attempts have failed for a transient reason and some are left, it waits for the
  next one, and nobody holds it. -/
  waiting : (∀ o ∈ outcomes, IsTransient o) → outcomes.length < m →
    t.status = .pending ∧ t.claimedBy = none ∧ t.claimedUntil = none ∧
      t.retries = outcomes.length ∧ t.errorMessage = lastMessage outcomes
  /-- When the last one has failed for a transient reason, the task has failed. -/
  exhausted : (∀ o ∈ outcomes, IsTransient o) → outcomes.length = m →
    t.status = .failed ∧ t.retries = m - 1 ∧ t.errorMessage = lastMessage outcomes
  /-- The first attempt that fails for good is the last one, and the task has failed. -/
  refused : ∀ early e late, outcomes = early ++ .error e :: late → e.isFinal = true →
    late = [] ∧ (∀ o ∈ early, IsTransient o) ∧
      t.status = .failed ∧ t.retries = early.length ∧ t.errorMessage = some e.message
  /-- The first attempt that succeeds is the last one, and the task is processed. -/
  processed : ∀ early late, outcomes = early ++ .ok () :: late →
    late = [] ∧ (∀ o ∈ early, IsTransient o) ∧ t.status = .processed ∧ t.retries = early.length

theorem not_isTransient_ok : ¬ IsTransient (.ok ()) := nofun

theorem not_isTransient_error {e : Error} (h : e.isFinal = true) : ¬ IsTransient (.error e) := by
  rintro ⟨_, he, htransient⟩
  obtain rfl := Except.error.inj he
  rw [Error.isFinal, htransient] at h
  cases h

/-- If all outcomes before the last one are transient, one that is not is the last one. -/
theorem eq_of_concat_eq {early early' late : List (Except Error Unit)} {o o' : Except Error Unit}
    (transient : ∀ o ∈ early, IsTransient o) (ho' : ¬ IsTransient o')
    (h : early ++ [o] = early' ++ o' :: late) : late = [] ∧ early' = early ∧ o' = o := by
  rcases List.eq_nil_or_concat late with rfl | ⟨between, last, rfl⟩
  · obtain ⟨rfl, hlast⟩ := List.append_inj' h rfl
    exact ⟨rfl, rfl, (List.singleton_inj.mp hlast).symm⟩
  · have h : early ++ [o] = (early' ++ o' :: between) ++ [last] := by simpa using h
    obtain ⟨rfl, _⟩ := List.append_inj' h rfl
    exact absurd (transient o' (by simp)) ho'

/-- **A task is accounted for** by where it stands.

One case for each way of standing. What is left to show in each of them is that the outcomes are
not those that another field is about, which is a matter of the first outcome that is not
transient (`eq_of_concat_eq`). -/
theorem Task.Stands.isAccountedFor {m : Nat} {outcomes : List (Except Error Unit)} {t : Task}
    (h : t.Stands m outcomes)
    (hfree : t.status = .pending → t.claimedBy = none ∧ t.claimedUntil = none) :
    t.IsAccountedFor m outcomes := by
  cases h with
  | open_ transient left limit status retries message =>
    have hnone (early o late) (ho : ¬ IsTransient o) : outcomes ≠ early ++ o :: late := by
      rintro rfl
      exact ho (transient o (by simp))
    exact
      { length_le := Nat.le_of_lt left
        waiting := fun _ _ => ⟨status, (hfree status).1, (hfree status).2, retries, message⟩
        exhausted := fun _ h => absurd h (Nat.ne_of_lt left)
        refused := fun early e late h hfinal =>
          absurd h (hnone early _ late (not_isTransient_error hfinal))
        processed := fun early late h => absurd h (hnone early _ late not_isTransient_ok) }
  -- the one success comes last, so that every other way to cut the outcomes is ruled out
  | @processed early _ transient left status retries =>
    have hlast : ¬ ∀ o ∈ early ++ [.ok ()], IsTransient o := fun h =>
      not_isTransient_ok (h _ (by simp))
    exact
      { length_le := by rw [List.length_append]; exact left
        waiting := fun h => absurd h hlast
        exhausted := fun h => absurd h hlast
        refused := fun early' e late h hfinal => by
          cases (eq_of_concat_eq transient (not_isTransient_error hfinal) h).2.2
        processed := fun early' late h => by
          obtain ⟨rfl, rfl, _⟩ := eq_of_concat_eq transient not_isTransient_ok h
          exact ⟨rfl, transient, status, retries⟩ }
  | @failed early e _ transient left last status retries message =>
    have htransient (h : ∀ o ∈ early ++ [.error e], IsTransient o) : e.isTransient = true := by
      obtain ⟨_, he, htransient⟩ := h (.error e) (by simp)
      exact Except.error.inj he ▸ htransient
    exact
      { length_le := by rw [List.length_append]; exact left
        waiting := fun h hlt => by
          have hlength := last (htransient h)
          rw [List.length_append, List.length_singleton, hlength] at hlt
          exact absurd hlt (Nat.lt_irrefl m)
        exhausted := fun h _ => by
          refine ⟨status, ?_, by rw [message, lastMessage_concat]⟩
          rw [retries, ← last (htransient h), Nat.add_sub_cancel]
        refused := fun early' e' late h hfinal => by
          obtain ⟨rfl, rfl, he⟩ := eq_of_concat_eq transient (not_isTransient_error hfinal) h
          obtain rfl := Except.error.inj he
          exact ⟨rfl, transient, status, retries, message⟩
        processed := fun early' late h => by
          cases (eq_of_concat_eq transient not_isTransient_ok h).2.2 }

namespace Scheduler

open TaskStore (History shared alone isFiled_empty)

/-- **A task that one sweeper attempts is accounted for.** A task is made in a store that calls
have led to, and one sweeper makes sweeps one after another, of any sizes, in which no call of the
store fails and nobody else touches the task; what its attempts come to is left open. Then the
outcomes of the attempts say where the task stands after the last sweep.

The sweeps are read as their chronicles, in which the attempts can be seen. The task rests when it
was made (`create_rests`), and sweeps leave it at rest with their outcomes
(`chronicles_rests`). -/
theorem attempts_accounted {maker s : Scheduler} {draft : TaskDraft} {t : Task}
    {before : List TaskStore.Entry} {s₀ s₁ s₂ : TaskStore} {making turns : List (Turn TaskStore)}
    {limits : List Nat} {reports : List (Except Error SweepReport)}
    (reached : History .empty before s₀)
    (made : Work.Runs (shared True fun _ => True) s₀ (maker.create draft).run making (.ok t) s₁)
    (swept : Work.Runs (alone t.id) s₁ (s.sweeps limits) turns reports s₂) :
    ∃ told, Work.Runs (alone t.id) s₁ (s.chronicles limits) turns told s₂ ∧
      reports = told.map (Except.map SweepReport.tally) ∧
      ∃ t', s₂.find? t.id = some t' ∧ t'.IsAccountedFor t.maxRetries (outcomes t.id told) := by
  rw [sweeps_eq, Work.runs_map_iff] at swept
  obtain ⟨told, rfl, swept⟩ := swept
  have hfiled := (reached.isFiled isFiled_empty).runs made
  obtain ⟨t', hrow, hstands, hfree⟩ := chronicles_rests hfiled swept (create_rests made)
  exact ⟨told, swept, rfl, t', hrow, hstands.isAccountedFor hfree⟩

/-- A task with two attempts. The first one fails for a transient reason, is retried and counted,
and the second one succeeds. -/
theorem attempts_accounted_of_retried :
    ∃ t s₁ making s₂ turns told t',
      Work.Runs (shared True fun _ => True) .empty (defaultSweeper.create closureDraft).run making
        (.ok t) s₁ ∧
      Work.Runs (alone t.id) s₁ (defaultSweeper.sweeps [1, 1]) turns
        [.ok { due := 1, retried := 1 }, .ok { due := 1, processed := 1 }] s₂ ∧
      s₂.find? t.id = some t' ∧ t'.IsAccountedFor t.maxRetries (outcomes t.id told) ∧
      t'.status = .processed ∧ t'.retries = 1 := by
  let t := closureDraft.toTask ⟨.closure, .first, 2⟩ "task" .epoch
  let t' := failedOnce (defaultSweeper.claimed t .epoch) .epoch
  let t'' := (defaultSweeper.claimed t' .epoch).finish .processed none .epoch
  have hdue : t.scheduledAt ≤ .epoch := Instant.first_le_self .epoch
  have hmade : Work.Reaches (shared True fun _ => True) .empty
      (defaultSweeper.create closureDraft).run (.ok t) (.only t) :=
    defaultSweeper.reaches_create (check_closureDraft _) "task" .epoch
  have hswept : Work.Reaches (alone t.id) (.only t) (defaultSweeper.sweeps [1, 1])
      [.ok { due := 1, retried := 1 }, .ok { due := 1, processed := 1 }] (.only t'') := by
    unfold sweeps
    rw [List.mapM_cons, List.mapM_cons, List.mapM_nil]
    exact .bind (reaches_sweep_retried rfl hdue rfl rfl)
      (.bind (.bind (reaches_sweep_processed (t := t') rfl hdue rfl) (.done _ _)) (.done _ _))
  obtain ⟨making, made⟩ := hmade
  obtain ⟨turns, swept⟩ := hswept
  obtain ⟨told, -, -, u, hrow, haccounted⟩ := attempts_accounted (.nil _) made swept
  obtain rfl := Option.some_inj.mp ((TaskStore.find?_only t'').symm.trans hrow)
  exact ⟨t, _, making, _, turns, told, t'', made, swept, hrow, haccounted, rfl, rfl⟩

end Scheduler

end Gathering
