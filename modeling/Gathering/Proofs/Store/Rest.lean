import Gathering.Proofs.Program.Log
import Gathering.Proofs.Store.Sharing

/-!
# Tasks at rest

A task that has reached a final status is at rest: the store refuses whatever is
asked of it (`TaskStore.respond_of_final`), whoever asks, and does not even look at
the claim.

Where programs share the store, any number of calls lies between two of their turns,
and all of them were made in some order (`TaskStore.exists_history_of_drifts`). So a
task that was seen at rest once is found as it was by everybody who comes later.
-/

namespace Gathering

namespace Task

variable {t : Task} {owner error : String} {deadline now : Instant}

/-! ## What a final status refuses

Every transition looks at the status before anything else, so none of these needs to know who asks
or when. -/

theorem claim?_of_final (h : t.status ≠ .pending) : t.claim? owner deadline now = none := by
  simp [claim?, isClaimable, isPending, h]

theorem extendLease?_of_final (h : t.status ≠ .pending) : t.extendLease? owner deadline = none := by
  simp [extendLease?, isHeldBy, isPending, h]

theorem isSettleableBy_of_final (h : t.status ≠ .pending) : t.isSettleableBy owner = false := by
  simp [isSettleableBy, isPending, h]

theorem process?_of_final (h : t.status ≠ .pending) : t.process? owner now = none := by
  simp [process?, isSettleableBy_of_final h]

theorem fail?_of_final (h : t.status ≠ .pending) : t.fail? owner error now = none := by
  simp [fail?, isSettleableBy_of_final h]

theorem failedAttempt?_of_final (h : t.status ≠ .pending) :
    t.failedAttempt? owner error now = none := by
  simp [failedAttempt?, isSettleableBy_of_final h]

theorem skip?_of_final (h : t.status ≠ .pending) : t.skip? now = none := by
  simp [skip?, isPending, h]

end Task

namespace TaskStore

/-- **What a transition of a task answers if it is refused.** Nothing else can be refused. -/
def Call.refusal? : (call : Call) → Option call.Answer
  | .claim _ _ _ _ => some none
  | .extendLease _ _ _ | .markProcessed _ _ _ | .markFailed _ _ _ _ | .markSkipped _ _ => some false
  | .incrementRetries _ _ _ => some none
  | .insert _ | .get _ | .listByEvent _ | .listDue _ _ => none

variable {mayFail : Prop} {others : Entry → Prop} {s s' : TaskStore} {x : String} {call : Call}
  {t : Task}

/-- **Every transition of a task at rest is refused**, and the store stays as it is.

A refusal is an answer and not an error: a claim that is refused answers that nothing was claimed,
and a call that settles answers that nothing was settled (`Call.refusal?`). -/
theorem respond_of_final {refusal : call.Answer} (hcall : call.refusal? = some refusal)
    (hsubject : call.subject? = some x) (hfind : s.find? x = some t) (hfinal : t.status ≠ .pending)
    (now : Instant) : s.respond now call = (.ok refusal, s) := by
  cases call with
  | insert _ | get _ | listByEvent _ | listDue _ _ => cases hcall
  | claim _ owner deadline at_ =>
    cases hcall
    cases hsubject
    have hrefused := transition_of_refused (·.claim? owner deadline at_) hfind
      (Task.claim?_of_final hfinal)
    simp only [respond, perform, hrefused]
  | extendLease _ owner deadline =>
    cases hcall
    cases hsubject
    have hrefused := transition_of_refused (·.extendLease? owner deadline) hfind
      (Task.extendLease?_of_final hfinal)
    simp only [respond, perform, hrefused, Except.map, happened, Option.isSome_none]
  | markProcessed _ owner at_ =>
    cases hcall
    cases hsubject
    have hrefused := transition_of_refused (·.process? owner at_) hfind
      (Task.process?_of_final hfinal)
    simp only [respond, perform, hrefused, Except.map, happened, Option.isSome_none]
  | incrementRetries _ owner error =>
    cases hcall
    cases hsubject
    have hrefused := transition_of_refused (·.failedAttempt? owner error now) hfind
      (Task.failedAttempt?_of_final hfinal)
    simp only [respond, perform, hrefused, Except.map, Option.map_none]
  | markFailed _ owner error at_ =>
    cases hcall
    cases hsubject
    have hrefused := transition_of_refused (·.fail? owner error at_) hfind
      (Task.fail?_of_final hfinal)
    simp only [respond, perform, hrefused, Except.map, happened, Option.isSome_none]
  | markSkipped _ at_ =>
    cases hcall
    cases hsubject
    have hrefused := transition_of_refused (·.skip? at_) hfind (Task.skip?_of_final hfinal)
    simp only [respond, perform, hrefused, Except.map, happened, Option.isSome_none]

/-- Where calls do not fail, whoever asks for a transition of a task at rest is refused. -/
theorem Answers.refused {refusal : call.Answer} {answer : Except Error call.Answer}
    (h : Answers False s (.request (.tasks call)) answer s') (hcall : call.refusal? = some refusal)
    (hsubject : call.subject? = some x) (hfind : s.find? x = some t)
    (hfinal : t.status ≠ .pending) : answer = .ok refusal := by
  obtain ⟨now, rfl, -⟩ := h.eq_respond
  rw [respond_of_final hcall hsubject hfind hfinal]

theorem Answers.eq_find? {answer : Except Error (Option Task)}
    (h : Answers False s (.request (.tasks (.get x))) answer s') :
    answer = .ok (s.find? x) ∧ s' = s := by
  obtain ⟨_, rfl, rfl⟩ := h.eq_respond
  exact ⟨rfl, rfl⟩

/-- **A stored task is cancelled exactly if it is pending.** -/
theorem Answers.skip_cases {at_ : Instant} {answer : Except Error Bool}
    (h : Answers False s (.request (.tasks (.markSkipped x at_))) answer s')
    (hfind : s.find? x = some t) :
    (t.status = .pending ∧ answer = .ok true ∧ s'.find? x = some (t.finish .skipped none at_)) ∨
      t.status ≠ .pending ∧ answer = .ok false ∧ s' = s := by
  obtain ⟨now, rfl, rfl⟩ := h.eq_respond
  by_cases hpending : t.status = .pending
  · have hskip : t.skip? at_ = some (t.finish .skipped none at_) :=
      Task.skip?_eq_some_iff.mpr ⟨Task.isPending_iff.mpr hpending, rfl⟩
    obtain ⟨hanswer, hfind'⟩ := @respond_of_transition s x (.markSkipped x at_) now (·.skip? at_)
      Option.isSome t _ rfl hfind hskip
    exact .inl ⟨hpending, hanswer, hfind'⟩
  · rw [respond_of_final rfl rfl hfind hpending]
    exact .inr ⟨hpending, rfl, rfl⟩

/-- **A task that was cancelled was pending**, and it is skipped. -/
theorem Answers.of_skipped {at_ : Instant}
    (h : Answers mayFail s (.request (.tasks (.markSkipped x at_))) (.ok true) s') :
    ∃ t, s.find? x = some t ∧ t.status = .pending ∧
      s'.find? x = some (t.finish .skipped none at_) := by
  obtain ⟨_, hmoves⟩ := h.moves x
  generalize hrow : s.find? x = row at hmoves
  generalize hrow' : s'.find? x = row' at hmoves
  cases hmoves with
  | kept h => simp [Entry.changes] at h
  | skipped h =>
    obtain ⟨hpending, rfl⟩ := Task.skip?_eq_some_iff.mp h
    exact ⟨_, rfl, Task.isPending_iff.mp hpending, rfl⟩

/-! ## Later on

What has happened to a store between two turns is a history of it, and so all that holds of
histories holds between turns. Whose calls these were does not matter. -/

/-- **What programs and others do to a store is a history of it.** -/
theorem exists_history_of_drifts (h : (shared mayFail others).Drifts s s') :
    ∃ entries, History s entries s' := by
  induction h with
  | refl => exact ⟨[], .nil s⟩
  | @tail s₁ _ _ hstep ih =>
    obtain ⟨entries, hhistory⟩ := ih
    rcases hstep with ⟨later, hlater, _⟩ | ⟨e, answer, hanswer⟩
    · exact ⟨entries ++ later, hhistory.append hlater⟩
    · cases hanswer with
      | tasks now call =>
        have hlater : History s₁ [⟨now, call, (s₁.respond now call).1⟩] (s₁.respond now call).2 :=
          .single rfl
        exact ⟨_, hhistory.append hlater⟩
      | failure _ _ _ => exact ⟨entries, hhistory⟩
      | elsewhere _ _ => exact ⟨entries, hhistory⟩

/-- A task that is stored is stored later on, and its origin stays. -/
theorem find?_of_drifts (h : (shared mayFail others).Drifts s s') (hfind : s.find? x = some t) :
    ∃ t', s'.find? x = some t' ∧ t'.origin = t.origin := by
  obtain ⟨entries, hhistory⟩ := exists_history_of_drifts h
  obtain ⟨t', hfind', horigin, _⟩ := hhistory.task hfind
  exact ⟨t', hfind', horigin⟩

/-- **A task at rest stays as it is.** -/
theorem find?_of_final (h : (shared mayFail others).Drifts s s') (hfind : s.find? x = some t)
    (hfinal : t.status ≠ .pending) : s'.find? x = some t := by
  obtain ⟨entries, hhistory⟩ := exists_history_of_drifts h
  obtain ⟨t', hfind', _, hsame, _⟩ := hhistory.task hfind
  rw [hfind', hsame hfinal]

theorem IsFiled.drifts (hfiled : IsFiled s) (h : (shared mayFail others).Drifts s s') :
    IsFiled s' := by
  obtain ⟨entries, hhistory⟩ := exists_history_of_drifts h
  exact hhistory.isFiled hfiled

/-! ## Undisturbed turns

To show that a program can do something it is enough to give one run, and in the simplest one
nobody comes in between. These rules put such runs together, turn by turn. -/

section Turns

variable {α : Type} {p : Work α} {turns : List (Turn TaskStore)}

theorem leadsBy_tasks {answer : Except Error call.Answer} {s₁ : TaskStore}
    {next : Except Error call.Answer → Work α} (now : Instant)
    (h : s.respond now call = (answer, s₁))
    (rest : Work.LeadsBy (shared mayFail others) s₁ (next answer) turns p s') :
    Work.LeadsBy (shared mayFail others) s (.ask (.request (.tasks call)) next)
      (⟨s, .request (.tasks call), answer, s₁⟩ :: turns) p s' := by
  have hanswer : answer = (s.respond now call).1 := by rw [h]
  have hstore : s₁ = (s.respond now call).2 := by rw [h]
  subst hanswer hstore
  exact .ask ⟨[], .nil s, fun _ h => by cases h⟩ (.tasks now call) rest

theorem leadsBy_elsewhere {e : Effect} {next : e.Answer → Work α} (answer : e.Answer)
    (h : ∀ call, e ≠ .request (.tasks call))
    (rest : Work.LeadsBy (shared mayFail others) s (next answer) turns p s') :
    Work.LeadsBy (shared mayFail others) s (.ask e next) (⟨s, e, answer, s⟩ :: turns) p s' :=
  .ask ⟨[], .nil s, fun _ h => by cases h⟩ (.elsewhere h answer) rest

end Turns

end TaskStore

end Gathering
