import Gathering.Proofs.Scheduler.Records
import Gathering.Proofs.Store.Due
import Gathering.Proofs.Store.Rest

/-!
# What a cancellation does

To cancel a task is to look it up and then to mark it as skipped, and the two are
turns of their own: in between a sweep may claim the task, settle it, or lose it. So
what was looked up decides only whether there is a task at all. Whether it is
cancelled is decided by the store, when it is marked (`Scheduler.Cancellation`).

The tasks of an event are cancelled one after the other, from a list that may be out
of date by the time a task has its turn. Then the store refuses, and the task is not
counted (`Scheduler.cancelEvent_among_others`). If nobody comes in between, the list
is never out of date (`Scheduler.cancelEvent_undisturbed`).

Four runs of a cancellation are possible (`Scheduler.CancelRun`). Only the last of
them comes to the mark, and there the store decides once more.
-/

namespace Gathering

variable {σ : Type} {W : Surroundings σ} {st st' : σ} {turns : List (Turn σ)}

/-- **Whether a task was cancelled in a turn.** -/
def Turn.isSkip : Turn σ → Bool
  | ⟨_, .request (.tasks (.markSkipped _ _)), .ok true, _⟩ => true
  | _ => false

namespace Scheduler

/-! ## How it runs

The programs are inverted, for any surroundings: what others do in between and how they are
answered is left open until it matters. -/

/-- What a cancellation makes of the answer when it marks its task. -/
def afterMark (id : String) : Except Error Bool → Except Error Unit
  | .error e => .error e
  | .ok true => .ok ()
  | .ok false => .error (.invalidInput ("task " ++ id ++ " is no longer pending"))

/-- **What happens when a task is cancelled**: it is looked up, and if it is there and pending, it
is marked as skipped. -/
inductive CancelRun (W : Surroundings σ) (id : String) :
    σ → List (Turn σ) → Except Error Unit → σ → Prop
  /-- It could not be looked up. -/
  | failed {st st₁ st' : σ} {e : Error} (others : W.meanwhile st st₁)
      (found : W.answers st₁ (.request (.tasks (.get id))) (.error e) st') :
      CancelRun W id st [⟨st₁, .request (.tasks (.get id)), .error e, st'⟩] (.error e) st'
  /-- It was not there. -/
  | missing {st st₁ st' : σ} (others : W.meanwhile st st₁)
      (found : W.answers st₁ (.request (.tasks (.get id))) (.ok none) st') :
      CancelRun W id st [⟨st₁, .request (.tasks (.get id)), .ok none, st'⟩]
        (.error (.notFound "task" id)) st'
  /-- It was in a final status. -/
  | final {st st₁ st' : σ} {t : Task} (others : W.meanwhile st st₁)
      (found : W.answers st₁ (.request (.tasks (.get id))) (.ok (some t)) st')
      (h : t.status ≠ .pending) :
      CancelRun W id st [⟨st₁, .request (.tasks (.get id)), .ok (some t), st'⟩]
        (.error (.invalidInput
          ("task " ++ id ++ " is " ++ t.status.name ++ ", only pending tasks can be cancelled")))
        st'
  /-- It was pending, and was marked or not. -/
  | marked {st st₁ st₂ st₃ st₄ st₅ st' : σ} {t : Task} {now : Instant} {answer : Except Error Bool}
      (others : W.meanwhile st st₁)
      (found : W.answers st₁ (.request (.tasks (.get id))) (.ok (some t)) st₂)
      (h : t.status = .pending)
      (others' : W.meanwhile st₂ st₃) (told : W.answers st₃ (.request .now) now st₄)
      (others'' : W.meanwhile st₄ st₅)
      (answered : W.answers st₅ (.request (.tasks (.markSkipped id now))) answer st') :
      CancelRun W id st
        [⟨st₁, .request (.tasks (.get id)), .ok (some t), st₂⟩, ⟨st₃, .request .now, now, st₄⟩,
          ⟨st₅, .request (.tasks (.markSkipped id now)), answer, st'⟩]
        (afterMark id answer) st'

/-- **A task is cancelled in this way.** -/
theorem runs_cancel {id : String} {result : Except Error Unit}
    (run : Work.Runs W st (cancel id).run turns result st') :
    CancelRun W id st turns result st' := by
  unfold cancel getById at run
  obtain ⟨st₁, found, st₂, rest, rfl, others, answered, run⟩ := Work.runs_call_iff.mp run
  match found, answered, run with
  | .error e, answered, run =>
    obtain ⟨rfl, rfl, rfl⟩ := Work.runs_pure_iff.mp run
    exact .failed others answered
  | .ok none, answered, run =>
    obtain ⟨rfl, rfl, rfl⟩ := Work.runs_pure_iff.mp run
    exact .missing others answered
  | .ok (some t), answered, run =>
    change Work.Runs W st₂ (if t.status ≠ .pending then _ else _ : Job Unit).run rest _ _ at run
    by_cases hstatus : t.status = .pending
    · rw [if_neg (not_not_intro hstatus)] at run
      obtain ⟨st₃, now, st₄, rest, rfl, others', told, run⟩ := Work.runs_call_iff.mp run
      obtain ⟨st₅, answer, st₆, rest, rfl, others'', answered', run⟩ := Work.runs_call_iff.mp run
      have hafter : rest = [] ∧ result = afterMark id answer ∧ st' = st₆ := by
        rcases answer with e | skipped
        · exact Work.runs_pure_iff.mp run
        · cases skipped <;> exact Work.runs_pure_iff.mp run
      obtain ⟨rfl, rfl, rfl⟩ := hafter
      exact .marked others answered hstatus others' told others'' answered'
    · rw [if_pos hstatus] at run
      obtain ⟨rfl, rfl, rfl⟩ := Work.runs_pure_iff.mp run
      exact .final others answered hstatus

/-- **What happens when tasks are cancelled** one after the other: those that were listed as pending
are marked. -/
inductive CancelAllRun (W : Surroundings σ) (now : Instant) :
    List Task → σ → List (Turn σ) → Except Error Nat → σ → Prop
  /-- No task is left. -/
  | nil (st : σ) : CancelAllRun W now [] st [] (.ok 0) st
  /-- A task was listed in a final status. -/
  | passed {t : Task} {tasks : List Task} {st st' : σ} {turns : List (Turn σ)}
      {result : Except Error Nat} (h : t.isPending = false)
      (rest : CancelAllRun W now tasks st turns result st') :
      CancelAllRun W now (t :: tasks) st turns result st'
  /-- A task could not be marked. -/
  | failed {t : Task} {tasks : List Task} {st st₁ st' : σ} {e : Error} (h : t.isPending = true)
      (others : W.meanwhile st st₁)
      (answered : W.answers st₁ (.request (.tasks (.markSkipped t.id now))) (.error e) st') :
      CancelAllRun W now (t :: tasks) st
        [⟨st₁, .request (.tasks (.markSkipped t.id now)), .error e, st'⟩] (.error e) st'
  /-- A task was to be marked, and then those after it. -/
  | marked {t : Task} {tasks : List Task} {st st₁ st₂ st' : σ} {skipped : Bool}
      {turns : List (Turn σ)} {result : Except Error Nat} (h : t.isPending = true)
      (others : W.meanwhile st st₁)
      (answered : W.answers st₁ (.request (.tasks (.markSkipped t.id now))) (.ok skipped) st₂)
      (rest : CancelAllRun W now tasks st₂ turns result st') :
      CancelAllRun W now (t :: tasks) st
        (⟨st₁, .request (.tasks (.markSkipped t.id now)), .ok skipped, st₂⟩ :: turns)
        (result.map (skipped.toNat + ·)) st'

/-- Counting one task more, or not. -/
theorem runs_count {α : Type} {j : Job α} {f : α → α} {result : Except Error α} :
    Work.Runs W st (j >>= fun a => pure (f a) : Job α).run turns result st' ↔
      ∃ r, r.map f = result ∧ Work.Runs W st j.run turns r st' := by
  rw [bind_pure_comp, ExceptT.run_map, Work.runs_map_iff]

/-- **Tasks are cancelled in this way.** -/
theorem runs_cancelAll {now : Instant} {tasks : List Task} {result : Except Error Nat}
    (run : Work.Runs W st (cancelAll now tasks).run turns result st') :
    CancelAllRun W now tasks st turns result st' := by
  induction tasks generalizing st turns result with
  | nil =>
    obtain ⟨rfl, rfl, rfl⟩ := Work.runs_pure_iff.mp run
    exact .nil _
  | cons t tasks ih =>
    unfold cancelAll at run
    -- a task that is not pending is passed over without a call
    cases h : t.isPending with
    | false =>
      rw [h] at run
      obtain ⟨r, hr, others⟩ := runs_count.mp run
      have hresult : r = result := by
        rw [← hr]
        cases r with
        | error e => rfl
        | ok n => exact congrArg Except.ok (Nat.zero_add n).symm
      exact .passed h (ih (hresult ▸ others))
    | true =>
      rw [h] at run
      obtain ⟨st₁, answer, st₂, rest, rfl, others, answered, run⟩ := Work.runs_call_iff.mp run
      cases answer with
      | error e =>
        obtain ⟨rfl, rfl, rfl⟩ := Work.runs_pure_iff.mp run
        exact .failed h others answered
      | ok skipped =>
        obtain ⟨r, rfl, rest⟩ := runs_count.mp run
        exact .marked h others answered (ih rest)

/-! ## What comes of it

Among others, where calls do not fail. The messages of the two refusals differ, but both say that
the input is invalid; that the task is missing is said only if it was missing when it was looked
up. -/

open TaskStore (shared IsFiled)

/-- **What has come of a cancellation**, by its own turns. -/
structure Cancellation (id : String) (turns : List (Turn TaskStore)) (result : Except Error Unit) :
    Prop where
  /-- It succeeds exactly if the task was pending when it was to be marked. -/
  ok_iff : result = .ok () ↔ ∃ turn ∈ turns, ∃ at_ t,
    turn.effect = .request (.tasks (.markSkipped id at_)) ∧
      turn.before.find? id = some t ∧ t.status = .pending
  /-- It misses the task exactly if it was not there when it was looked up. -/
  notFound_iff : result = .error (.notFound "task" id) ↔ ∃ turn ∈ turns,
    turn.effect = .request (.tasks (.get id)) ∧ turn.before.find? id = none
  /-- Otherwise it says that the input is invalid. -/
  otherwise : result = .ok () ∨ result = .error (.notFound "task" id) ∨
    ∃ message, result = .error (.invalidInput message)
  /-- If it succeeds, it has marked the task itself. -/
  marked : result = .ok () → ∃ turn ∈ turns, ∃ at_,
    turn.deed = ⟨.request (.tasks (.markSkipped id at_)), .ok true⟩
  /-- If it fails, it has changed nothing. -/
  kept : result ≠ .ok () → ∀ turn ∈ turns, turn.after = turn.before

variable {others : TaskStore.Entry → Prop} {s s' : TaskStore} {id : String}
  {turns : List (Turn TaskStore)}

/-- **Every cancellation comes to one of these ends**, whatever others do in between.

By the four runs. In the last one the task was pending when it was looked up; whether it still was
when it was to be marked is what the answer of the store says, and it is marked exactly then. -/
theorem cancellation_of_runs {result : Except Error Unit}
    (run : Work.Runs (shared False others).crowded s (cancel id).run turns result s') :
    Cancellation id turns result := by
  cases runs_cancel run with
  | failed _ found => cases (TaskStore.Answers.eq_find? found).1
  | missing _ found =>
    obtain ⟨hnone, rfl⟩ := TaskStore.Answers.eq_find? found
    have hnone := Except.ok.inj hnone
    exact
      { ok_iff := by simp
        notFound_iff := by simp [← hnone]
        otherwise := .inr (.inl rfl)
        marked := nofun
        kept := fun _ => List.forall_mem_singleton.mpr rfl }
  | final _ found hfinal =>
    obtain ⟨hsome, rfl⟩ := TaskStore.Answers.eq_find? found
    have hsome := Except.ok.inj hsome
    exact
      { ok_iff := by simp
        notFound_iff := by simp [← hsome]
        otherwise := .inr (.inr ⟨_, rfl⟩)
        marked := nofun
        kept := fun _ => List.forall_mem_singleton.mpr rfl }
  | marked _ found _ others' told others'' answered =>
    obtain ⟨hsome, rfl⟩ := TaskStore.Answers.eq_find? found
    have hsome := Except.ok.inj hsome
    obtain rfl := TaskStore.Answers.eq_of_elsewhere told (fun _ h => by cases h)
    obtain ⟨t', hfind, _⟩ := TaskStore.find?_of_drifts (others'.trans others'') hsome.symm
    -- since the look-up the task may have been settled by somebody else
    rcases TaskStore.Answers.skip_cases answered hfind with
      ⟨hpending, rfl, _⟩ | ⟨hfinal, rfl, rfl⟩
    · exact
        { ok_iff := by simp [afterMark, hfind, hpending]
          notFound_iff := by simp [afterMark, ← hsome]
          otherwise := .inl rfl
          marked := fun _ => by simp [Turn.deed]
          kept := fun h => absurd rfl h }
    · exact
        { ok_iff := by simp [afterMark, hfind, hfinal]
          notFound_iff := by simp [afterMark, ← hsome]
          otherwise := .inr (.inr ⟨_, rfl⟩)
          marked := nofun
          kept := fun _ => by simp }

/-- The tasks of a list are cancelled among others: those are counted that were marked. -/
theorem CancelAllRun.result_eq {now : Instant} {tasks : List Task} {result : Except Error Nat}
    (run : CancelAllRun (shared False others).crowded now tasks s turns result s')
    (hstored : ∀ t ∈ tasks, ∃ t', s.find? t.id = some t') :
    result = .ok (turns.countP Turn.isSkip) := by
  induction run with
  | nil _ => rfl
  | passed _ _ ih => exact ih (List.forall_mem_cons.mp hstored).2
  | failed _ others answered =>
    obtain ⟨⟨t', hfind⟩, _⟩ := List.forall_mem_cons.mp hstored
    obtain ⟨t₁, hfind₁, _⟩ := TaskStore.find?_of_drifts others hfind
    obtain ⟨_, h, _⟩ | ⟨_, h, _⟩ := TaskStore.Answers.skip_cases answered hfind₁ <;> cases h
  | @marked t tasks s s₁ s₂ s' skipped turns result _ others answered rest ih =>
    have hdrifts : (shared False _).Drifts s s₂ :=
      others.trans (Surroundings.drifts_of_answers answered)
    rw [ih fun t ht => ?_]
    · rw [List.countP_cons, Nat.add_comm]
      cases skipped <;> rfl
    · obtain ⟨t', hfind⟩ := hstored t (List.mem_cons_of_mem _ ht)
      obtain ⟨t₂, hfind₂, _⟩ := TaskStore.find?_of_drifts hdrifts hfind
      exact ⟨t₂, hfind₂⟩

/-- **The tasks of an event are cancelled in this way** where calls do not fail: the time is asked
for, the tasks are listed as they are stored, and these are cancelled. -/
theorem runs_cancelEvent {W : Surroundings TaskStore} (hW : W.answers = TaskStore.Answers False)
    {eventId : String} {result : Except Error Nat}
    (run : Work.Runs W s (cancelEvent eventId).run turns result s') :
    ∃ s₁ now s₂ rest, W.meanwhile s s₁ ∧ W.meanwhile s₁ s₂ ∧
      turns = ⟨s₁, .request .now, now, s₁⟩ ::
        ⟨s₂, .request (.tasks (.listByEvent eventId)), .ok (s₂.ofEvent eventId), s₂⟩ :: rest ∧
      CancelAllRun W now (s₂.ofEvent eventId) s₂ rest result s' := by
  unfold cancelEvent at run
  obtain ⟨s₁, now, _, rest, rfl, others, told, run⟩ := Work.runs_call_iff.mp run
  obtain ⟨s₂, answer, _, rest, rfl, others', listed, cancelled⟩ := Work.runs_call_iff.mp run
  rw [hW] at told listed
  obtain rfl := told.eq_of_elsewhere fun _ h => by cases h
  obtain ⟨_, hanswer, rfl⟩ := listed.eq_respond
  subst hanswer
  exact ⟨_, now, _, rest, others, others', rfl, runs_cancelAll cancelled⟩

/-- **Whatever others do in between, the tasks of an event are cancelled without an error**, and
those are counted that the cancellation itself has marked. -/
theorem cancelEvent_among_others {eventId : String} {result : Except Error Nat}
    (hfiled : IsFiled s)
    (run : Work.Runs (shared False others).crowded s (cancelEvent eventId).run turns result s') :
    result = .ok (turns.countP Turn.isSkip) := by
  obtain ⟨s₁, now, s₂, rest, others, others', rfl, cancelled⟩ := runs_cancelEvent rfl run
  have hfiled := hfiled.drifts (others.trans others')
  rw [cancelled.result_eq fun t ht => ⟨t, hfiled.find?_of_mem_ofEvent ht⟩]
  simp [Turn.isSkip]

/-! ## Undisturbed

If nobody comes in between, each pending task of the list is marked, as its row is still the one
that was listed: the list has no task twice, and marking one leaves the others alone. -/

/-- **The task after an undisturbed cancellation** of some tasks: it is skipped if it was one of
them and pending. -/
def skippedIf (chosen : Prop) [Decidable chosen] (now : Instant) (t : Task) : Task :=
  if chosen ∧ t.isPending then t.finish .skipped none now else t

/-- **Tasks that are cancelled undisturbed**: the pending ones are skipped and counted, and the
others stay as they are. -/
theorem CancelAllRun.undisturbed {now : Instant} {tasks : List Task} {result : Except Error Nat}
    (run : CancelAllRun (shared False fun _ => False) now tasks s turns result s')
    (hnodup : (tasks.map (·.id)).Nodup) (hstored : ∀ t ∈ tasks, s.find? t.id = some t) :
    result = .ok (tasks.countP (·.isPending)) ∧
      ∀ x, s'.find? x = (s.find? x).map (skippedIf (x ∈ tasks.map (·.id)) now) := by
  induction run with
  | nil s => exact ⟨rfl, fun x => by cases s.find? x <;> simp [skippedIf]⟩
  | @passed t tasks s _ _ _ hfinal _ ih =>
    obtain ⟨hfind, hstored⟩ := List.forall_mem_cons.mp hstored
    obtain ⟨hresult, hrows⟩ := ih (List.nodup_cons.mp hnodup).2 hstored
    refine ⟨by rw [hresult, List.countP_cons_of_neg (by simp [hfinal])], fun x => ?_⟩
    rw [hrows]
    by_cases hx : x = t.id
    · subst hx
      simp [hfind, skippedIf, hfinal]
    · cases s.find? x <;> simp [skippedIf, hx]
  | failed _ others answered =>
    obtain ⟨hfind, _⟩ := List.forall_mem_cons.mp hstored
    obtain rfl := TaskStore.eq_of_undisturbed others
    obtain ⟨_, h, _⟩ | ⟨_, h, _⟩ := TaskStore.Answers.skip_cases answered hfind <;> cases h
  | @marked t tasks _ s s₂ _ skipped _ result hpending others answered rest ih =>
    obtain ⟨hfind, hstored⟩ := List.forall_mem_cons.mp hstored
    obtain ⟨hnew, hnodup⟩ := List.nodup_cons.mp hnodup
    obtain rfl := TaskStore.eq_of_undisturbed others
    -- the marked task comes once in the list, so the others are still as they were
    have hother (x : String) (hx : x ≠ t.id) : s₂.find? x = s.find? x :=
      TaskStore.Answers.find?_of_ne answered fun h => hx (Option.some_inj.mp h).symm
    rcases TaskStore.Answers.skip_cases answered hfind with
      ⟨_, hskipped, hfind₂⟩ | ⟨hfinal, _⟩
    · obtain rfl := Except.ok.inj hskipped
      obtain ⟨hresult, hrows⟩ := ih hnodup fun u hu => by
        have hne : u.id ≠ t.id := fun h => hnew (List.mem_map.mpr ⟨u, hu, h⟩)
        rw [hother u.id hne]
        exact hstored u hu
      refine ⟨?_, fun x => ?_⟩
      · rw [hresult, List.countP_cons_of_pos hpending, Nat.add_comm]
        rfl
      · rw [hrows]
        by_cases hx : x = t.id
        · subst hx
          simp [hfind, hfind₂, skippedIf, hnew, hpending]
        · rw [hother x hx]
          cases s.find? x <;> simp [skippedIf, hx]
    · exact absurd (Task.isPending_iff.mp hpending) hfinal

/-- **What has come of cancelling the tasks of an event**, undisturbed. -/
structure EventCancellation (eventId : String) (s : TaskStore) (result : Except Error Nat)
    (s' : TaskStore) : Prop where
  /-- Those are counted that were pending. -/
  counted : result = .ok (s.rows.values.countP fun t => t.eventId = eventId && t.isPending)
  /-- These are skipped, and every other task stays as it is. -/
  rows : ∃ now, ∀ x, s'.find? x =
    (s.find? x).map fun t => skippedIf (t.eventId = eventId) now t

/-- **The tasks of an event are cancelled in this way**, if nobody comes in between.

The list of the event has each of its tasks once, as it is stored. So those and no others are
looked at by `CancelAllRun.undisturbed`, and what it says of the list is put in terms of the
store. -/
theorem cancelEvent_undisturbed {eventId : String} {result : Except Error Nat}
    (hfiled : IsFiled s)
    (run : Work.Runs (shared False fun _ => False) s (cancelEvent eventId).run turns result s') :
    EventCancellation eventId s result s' := by
  obtain ⟨_, now, s₂, rest, others, others', rfl, cancelled⟩ := runs_cancelEvent rfl run
  obtain rfl := TaskStore.eq_of_undisturbed others
  obtain rfl := TaskStore.eq_of_undisturbed others'
  obtain ⟨hresult, hrows⟩ := cancelled.undisturbed (hfiled.nodup_ofEvent eventId)
    fun t ht => hfiled.find?_of_mem_ofEvent ht
  refine ⟨?_, now, fun x => ?_⟩
  · rw [hresult, (s₂.perm_ofEvent eventId).countP_eq, List.countP_filter]
    simp only [Bool.and_comm]
  · rw [hrows]
    cases hfind : s₂.find? x with
    | none => rfl
    | some t =>
      have hmem : x ∈ (s₂.ofEvent eventId).map (·.id) ↔ t.eventId = eventId := by
        constructor
        · intro hx
          obtain ⟨u, hu, rfl⟩ := List.mem_map.mp hx
          rw [hfiled.find?_of_mem_ofEvent hu, Option.some_inj] at hfind
          exact hfind ▸ (TaskStore.mem_ofEvent_iff.mp hu).2
        · exact fun hevent => List.mem_map.mpr
            ⟨t, TaskStore.mem_ofEvent_iff.mpr ⟨⟨x, hfind⟩, hevent⟩, hfiled x t hfind⟩
      simp [skippedIf, hmem]

end Scheduler

end Gathering
