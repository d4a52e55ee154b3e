import Gathering.Proofs.Program.Run
import Gathering.Proofs.Store.Finality

/-!
# A store of tasks that is shared

A program that calls the store of tasks shares it with others
(`TaskStore.shared`). The store answers by its own clock, and it may also fail a
call without having done anything; whatever else the program asks for is answered
in any way at all. Between the effects of the program others call the store as
often as they like.

So a program may see anything that sweepers, users and a wrong clock can bring
about. What it may rely on is that every call moves the tasks as its entry says
(`TaskStore.Answers.moves`).
-/

namespace Gathering

/-- The task that a call of the store may change. -/
def TaskStore.Call.subject? : TaskStore.Call → Option String
  | .insert t => some t.id
  | .get _ | .listByEvent _ | .listDue _ _ => none
  | .claim id _ _ _ | .extendLease id _ _ | .markProcessed id _ _ | .incrementRetries id _ _
  | .markFailed id _ _ _ | .markSkipped id _ => some id

/-- The task that an effect may change. -/
def Effect.subject? : Effect → Option String
  | .request (.tasks call) => call.subject?
  | _ => none

theorem Effect.nonempty_answer (e : Effect) : Nonempty e.Answer := by
  cases e with
  | request r =>
    cases r with
    | now => exact ⟨.epoch⟩
    | freshId => exact ⟨""⟩
    | isCancelled => exact ⟨false⟩
    | tasks _ | roster _ | trail _ | cache _ | send _ => exact ⟨.error (.notFound "" "")⟩
  | fanOut _ => exact ⟨[]⟩
  | startSweeper _ _ => exact ⟨0⟩
  | stopSweeper _ _ => exact ⟨false⟩

namespace TaskStore

/-- **How effects are answered by who has the store of tasks.** -/
inductive Answers (mayFail : Prop) (s : TaskStore) : (e : Effect) → e.Answer → TaskStore → Prop
  /-- The store was called, and its own clock showed some time. -/
  | tasks (now : Instant) (call : Call) :
      Answers mayFail s (.request (.tasks call)) (s.respond now call).1 (s.respond now call).2
  /-- The call failed. -/
  | failure (h : mayFail) (call : Call) (e : Error) :
      Answers mayFail s (.request (.tasks call)) (.error e) s
  /-- It was no call of the store. -/
  | elsewhere {e : Effect} (h : ∀ call, e ≠ .request (.tasks call)) (answer : e.Answer) :
      Answers mayFail s e answer s

/-- **A store of tasks and others who call it**, with calls and answers of some kind. -/
def shared (mayFail : Prop) (others : Entry → Prop) : Surroundings TaskStore where
  answers := Answers mayFail
  meanwhile s s' := ∃ entries, History s entries s' ∧ ∀ e ∈ entries, others e

variable {mayFail : Prop} {others : Entry → Prop} {s s' : TaskStore} {x : String} {call : Call}
  {answer : Except Error call.Answer}

/-- **An answered call moves the tasks as its entry says.** -/
theorem Answers.moves (h : Answers mayFail s (.request (.tasks call)) answer s') (x : String) :
    ∃ now, Entry.Moves x ⟨now, call, answer⟩ (s.find? x) (s'.find? x) := by
  cases h with
  | tasks now call => exact ⟨now, s.respond_moves now call x⟩
  | failure _ call e => exact ⟨.epoch, .kept (Entry.changes_of_error x _ call e)⟩
  | elsewhere h _ => exact absurd rfl (h call)

theorem Answers.eq_of_elsewhere {e : Effect} {answer : e.Answer}
    (h : Answers mayFail s e answer s') (hother : ∀ call, e ≠ .request (.tasks call)) : s' = s := by
  cases h with
  | tasks now call => exact absurd rfl (hother call)
  | failure _ call _ => rfl
  | elsewhere _ _ => rfl

/-- A call changes no task but the one that it is about. -/
theorem Entry.changes_of_ne {e : Entry} (hx : e.call.subject? ≠ some x) : e.changes x = false := by
  refine Bool.eq_false_iff.mpr fun hchanges => hx ?_
  unfold changes at hchanges
  split at hchanges
  any_goals exact congrArg some (of_decide_eq_true hchanges)
  cases hchanges

/-- **An effect changes no task but the one that it is about.** -/
theorem Answers.find?_of_ne {e : Effect} {answer : e.Answer} (h : Answers mayFail s e answer s')
    (hx : e.subject? ≠ some x) : s'.find? x = s.find? x := by
  cases h with
  | tasks now call => exact (s.respond_moves now call x).eq_of_changes (Entry.changes_of_ne hx)
  | failure _ call _ => rfl
  | elsewhere _ _ => rfl

theorem Answers.eq_respond_of_ok {a : call.Answer}
    (h : Answers mayFail s (.request (.tasks call)) (.ok a) s') :
    ∃ now, .ok a = (s.respond now call).1 ∧ s' = (s.respond now call).2 := by
  generalize hanswer : (Except.ok a : Except Error call.Answer) = answer at h
  cases h with
  | tasks now call => exact ⟨now, rfl, rfl⟩
  | failure _ call e => cases hanswer
  | elsewhere h _ => exact absurd rfl (h call)

theorem Answers.eq_respond (h : Answers False s (.request (.tasks call)) answer s') :
    ∃ now, answer = (s.respond now call).1 ∧ s' = (s.respond now call).2 := by
  cases h with
  | tasks now call => exact ⟨now, rfl, rfl⟩
  | failure h _ _ => exact h.elim
  | elsewhere h _ => exact absurd rfl (h call)

/-! ## A store that stays filed

Every task is stored under its identifier, because it was added so, and no transition changes the
identifier. This holds for a store whoever uses it, and it is what a listing needs to be in strict
order. -/

/-- Whatever effect is answered, the store stays filed. -/
theorem IsFiled.answers {e : Effect} {answer : e.Answer} (hfiled : IsFiled s)
    (h : Answers mayFail s e answer s') : IsFiled s' := by
  by_cases hcall : ∃ call, e = .request (.tasks call)
  · obtain ⟨call, rfl⟩ := hcall
    intro x t ht
    obtain ⟨now, hmoves⟩ := h.moves x
    rw [ht] at hmoves
    exact hmoves.id_eq (hfiled x)
  · rw [h.eq_of_elsewhere fun call he => hcall ⟨call, he⟩]
    exact hfiled

theorem IsFiled.meanwhile (hfiled : IsFiled s) (h : (shared mayFail others).meanwhile s s') :
    IsFiled s' := by
  obtain ⟨entries, hhistory, _⟩ := h
  exact hhistory.isFiled hfiled

theorem IsFiled.runs {α : Type} {p : Work α} {turns : List (Turn TaskStore)} {a : α}
    (hfiled : IsFiled s) (run : Work.Runs (shared mayFail others) s p turns a s') : IsFiled s' := by
  induction run with
  | done a s => exact hfiled
  | ask hmeanwhile answered _ ih => exact ih ((hfiled.meanwhile hmeanwhile).answers answered)

/-! ## Undisturbed runs -/

theorem reaches_tasks {α : Type} {a : α} {s₁ : TaskStore}
    {next : Except Error call.Answer → Work α} (now : Instant)
    (h : s.respond now call = (answer, s₁))
    (rest : Work.Reaches (shared mayFail others) s₁ (next answer) a s') :
    Work.Reaches (shared mayFail others) s (.ask (.request (.tasks call)) next) a s' := by
  have hanswer : answer = (s.respond now call).1 := by rw [h]
  have hstore : s₁ = (s.respond now call).2 := by rw [h]
  subst hanswer hstore
  exact .ask ⟨[], .nil s, fun _ h => by cases h⟩ (.tasks now call) rest

theorem reaches_elsewhere {α : Type} {a : α} {e : Effect} {next : e.Answer → Work α}
    (answer : e.Answer) (h : ∀ call, e ≠ .request (.tasks call))
    (rest : Work.Reaches (shared mayFail others) s (next answer) a s') :
    Work.Reaches (shared mayFail others) s (.ask e next) a s' :=
  .ask ⟨[], .nil s, fun _ h => by cases h⟩ (.elsewhere h answer) rest

/-- Where nobody comes in between, nothing happens in between. -/
theorem eq_of_undisturbed (h : (shared mayFail fun _ => False).meanwhile s s') : s' = s := by
  obtain ⟨entries, hhistory, hnobody⟩ := h
  cases hhistory with
  | nil => rfl
  | cons => exact (hnobody _ List.mem_cons_self).elim

/-- **Every program has an undisturbed run.**

A program is a tree in which each answer leads to a smaller one, so answering its effects one
after the other comes to an end; and a store answers every call. -/
theorem exists_reaches {α : Type} (p : Work α) (s : TaskStore) :
    ∃ a s', Work.Reaches (shared mayFail others) s p a s' := by
  induction p generalizing s with
  | done a => exact ⟨a, s, .done a s⟩
  | ask e next ih =>
    by_cases hcall : ∃ call, e = .request (.tasks call)
    · obtain ⟨call, rfl⟩ := hcall
      obtain ⟨a, s', rest⟩ := ih (s.respond .epoch call).1 (s.respond .epoch call).2
      exact ⟨a, s', reaches_tasks .epoch rfl rest⟩
    · obtain ⟨answer⟩ := e.nonempty_answer
      obtain ⟨a, s', rest⟩ := ih answer s
      exact ⟨a, s', reaches_elsewhere answer (fun call he => hcall ⟨call, he⟩) rest⟩

/-! ## Transitions that happen and transitions that do not

The two lemmas are about the answer and not about the task only: whether a call has done anything
can be told from what it answers. -/

/-- A transition of a task that allows it happens, and the call says so. -/
theorem respond_of_transition {now : Instant} {change : Task → Option Task}
    {f : Option Task → call.Answer} {t t' : Task}
    (hperform : s.perform now call = (s.transition x change).map fun r => (f r.1, r.2))
    (hfind : s.find? x = some t) (hchange : change t = some t') :
    (s.respond now call).1 = .ok (f (some t')) ∧ (s.respond now call).2.find? x = some t' := by
  have htransition : s.transition x change = .ok (some t', ⟨s.rows.insert x t'⟩) := by
    unfold transition
    simp only [hfind, hchange]
  unfold respond
  rw [hperform, htransition]
  exact ⟨rfl, (Keyed.find?_insert s.rows x t' x).trans (if_pos rfl)⟩

/-- **A claim is refused exactly if the task is there and cannot be claimed.** -/
theorem claim_refused_iff {now at_ deadline : Instant} {owner : String} :
    (s.respond now (.claim x owner deadline at_)).1 = .ok none ↔
      ∃ t, s.find? x = some t ∧ t.isClaimable at_ = false := by
  have hperform : s.perform now (.claim x owner deadline at_) =
      s.transition x (·.claim? owner deadline at_) := rfl
  unfold respond
  rw [hperform]
  unfold transition
  cases hfind : s.find? x with
  | none => simp
  | some t => cases hclaim : t.isClaimable at_ <;> simp [Task.claim?, hclaim]

end TaskStore

end Gathering
