import Gathering.Proofs.Store.History
import Gathering.Proofs.Task.Transition

/-!
# Final states and the audit trail

The store of tasks is its own audit trail. Whatever is called, in whatever
order and by whomever, no task is removed, no task changes its origin, and a
task that has reached a final status stays as it is, to the last field. The
answers tell the same story as the tasks: of all the calls that were to settle
or cancel a task, one was answered with success if the task has reached a final
status, and none otherwise.

One entry of a history either keeps the status of a task or takes it from
pending to a final one (`Entry.Moves.status`), and only the second is a success
of a settling call. The rest is induction over the history.
-/

namespace Gathering.TaskStore

variable {x : String} {e : Entry} {t t' : Task}

/-- Whether a call succeeded in settling the task of an identifier for good, or in cancelling it. -/
def Entry.finishes (x : String) : Entry → Bool
  | ⟨_, .markProcessed id _ _, .ok true⟩ => id = x
  | ⟨_, .markFailed id _ _ _, .ok true⟩ => id = x
  | ⟨_, .markSkipped id _, .ok true⟩ => id = x
  | _ => false

namespace Entry

theorem finishes_eq_false (h : e.changes x = false) : e.finishes x = false := by
  unfold finishes
  split
  · exact h
  · exact h
  · exact h
  · rfl

/-- **No entry removes a task or changes its origin**, and one that changes the task at all found
it pending. -/
theorem Moves.origin {row : Option Task} (h : Moves x e (some t) row) :
    ∃ t', row = some t' ∧ t'.origin = t.origin ∧ (t' = t ∨ t.status = .pending) := by
  cases h with
  | kept _ => exact ⟨t, rfl, rfl, .inl rfl⟩
  | claimed h =>
    obtain ⟨hclaim, rfl⟩ := Task.claim?_eq_some_iff.mp h
    exact ⟨_, rfl, rfl, .inr (Task.isClaimable_iff.mp hclaim).1⟩
  | extended h =>
    obtain ⟨hheld, rfl⟩ := Task.extendLease?_eq_some_iff.mp h
    exact ⟨_, rfl, rfl, .inr (Task.isHeldBy_iff.mp hheld).1⟩
  | processed h =>
    obtain ⟨hsettle, rfl⟩ := Task.process?_eq_some_iff.mp h
    exact ⟨_, rfl, rfl, .inr (Task.isSettleableBy_iff.mp hsettle).1⟩
  | retried h =>
    obtain ⟨hsettle, rfl⟩ := Task.failedAttempt?_eq_some_iff.mp h
    exact ⟨_, rfl, rfl, .inr (Task.isSettleableBy_iff.mp hsettle).1⟩
  | failed h =>
    obtain ⟨hsettle, rfl⟩ := Task.fail?_eq_some_iff.mp h
    exact ⟨_, rfl, rfl, .inr (Task.isSettleableBy_iff.mp hsettle).1⟩
  | skipped h =>
    obtain ⟨hpending, rfl⟩ := Task.skip?_eq_some_iff.mp h
    exact ⟨_, rfl, rfl, .inr (Task.isPending_iff.mp hpending)⟩

/-- What is under an identifier stays under it, or was added under it. -/
theorem Moves.id_eq {row : Option Task} (h : Moves x e row (some t'))
    (hid : ∀ t, row = some t → t.id = x) : t'.id = x := by
  cases row with
  | none =>
    cases h with
    | inserted hid => exact hid
  | some t =>
    obtain ⟨u, hu, horigin, _⟩ := h.origin
    cases hu
    exact (congrArg Origin.id horigin).trans (hid t rfl)

/-- **An entry keeps the status of a task or finishes it**, and it says which. -/
theorem Moves.status (h : Moves x e (some t) (some t')) :
    (e.finishes x = false ∧ t'.status = t.status) ∨
      (e.finishes x = true ∧ t.status = .pending ∧ t'.status ≠ .pending) := by
  cases h with
  | kept h => exact .inl ⟨finishes_eq_false h, rfl⟩
  | claimed h =>
    obtain ⟨_, rfl⟩ := Task.claim?_eq_some_iff.mp h
    exact .inl ⟨rfl, rfl⟩
  | extended h =>
    obtain ⟨_, rfl⟩ := Task.extendLease?_eq_some_iff.mp h
    exact .inl ⟨rfl, rfl⟩
  | retried h =>
    obtain ⟨_, rfl⟩ := Task.failedAttempt?_eq_some_iff.mp h
    exact .inl ⟨rfl, rfl⟩
  | processed h =>
    obtain ⟨hsettle, rfl⟩ := Task.process?_eq_some_iff.mp h
    exact .inr ⟨decide_eq_true rfl, (Task.isSettleableBy_iff.mp hsettle).1, nofun⟩
  | failed h =>
    obtain ⟨hsettle, rfl⟩ := Task.fail?_eq_some_iff.mp h
    exact .inr ⟨decide_eq_true rfl, (Task.isSettleableBy_iff.mp hsettle).1, nofun⟩
  | skipped h =>
    obtain ⟨hpending, rfl⟩ := Task.skip?_eq_some_iff.mp h
    exact .inr ⟨decide_eq_true rfl, Task.isPending_iff.mp hpending, nofun⟩

theorem Moves.finishes_of_none {row : Option Task} (h : Moves x e none row) :
    e.finishes x = false := by
  cases h with
  | kept h => exact finishes_eq_false h
  | inserted _ => rfl

end Entry

/-- **Every task is stored under its identifier.** -/
def IsFiled (s : TaskStore) : Prop := ∀ x t, s.find? x = some t → t.id = x

theorem isFiled_empty : IsFiled .empty := fun _ _ h => by cases h

/-! ## Along a history

What one entry does to a stored task is now carried along a history. The count needs no more than
the status: an entry that finishes the task finds it pending and leaves it final, and in a final
status no entry finishes it again. -/

/-- How many calls of a history have finished a task. -/
def timesFinished (x : String) (entries : List Entry) : Nat :=
  entries.countP (·.finishes x)

/-- **A stored task along a history**: it stays, keeps its origin, and is finished once if it goes
from pending to a final status, and else never. -/
theorem History.task {s s' : TaskStore} {entries : List Entry} (h : History s entries s')
    (ht : s.find? x = some t) :
    ∃ t', s'.find? x = some t' ∧ t'.origin = t.origin ∧ (t.status ≠ .pending → t' = t) ∧
      timesFinished x entries = if t.status = .pending ∧ t'.status ≠ .pending then 1 else 0 := by
  induction h generalizing t with
  | nil s =>
    refine ⟨t, ht, rfl, fun _ => rfl, ?_⟩
    rw [if_neg fun h => h.2 h.1]
    rfl
  | @cons s s' e entries answered rest ih =>
    have hmoves := moves_of_answered x answered
    rw [ht] at hmoves
    obtain ⟨u, hu, horigin, hsame⟩ := hmoves.origin
    rw [hu] at hmoves
    obtain ⟨t', ht', horigin', hfinal, hcount⟩ := ih hu
    refine ⟨t', ht', horigin'.trans horigin, fun hterminal => ?_, ?_⟩
    · have hut : u = t := hsame.resolve_right hterminal
      rw [hut] at hfinal
      exact hfinal hterminal
    · show (e :: entries).countP _ = _
      rw [List.countP_cons, show entries.countP (·.finishes x) = _ from hcount]
      rcases hmoves.status with ⟨hkeeps, hstatus⟩ | ⟨hfinishes, hpending, hdone⟩
      · rw [hkeeps, hstatus]
        rfl
      · -- the rest of the history finds the task in its final status and leaves it there
        rw [hfinishes, hfinal hdone, if_neg (c := u.status = .pending ∧ _) fun h => hdone h.1]
        exact (if_pos ⟨hpending, hdone⟩).symm

/-- As long as a task is not there, it is not finished. -/
theorem History.timesFinished_of_none {s s' : TaskStore} {entries : List Entry}
    (h : History s entries s') (hnone : s'.find? x = none) : timesFinished x entries = 0 := by
  induction h with
  | nil s => rfl
  | @cons s s' e entries answered rest ih =>
    have hmoves := moves_of_answered x answered
    show (e :: entries).countP _ = 0
    rw [List.countP_cons, show entries.countP (·.finishes x) = 0 from ih hnone]
    cases hrow : s.find? x with
    | none =>
      rw [hrow] at hmoves
      rw [hmoves.finishes_of_none]
      rfl
    | some t =>
      -- a task that was there would still be
      obtain ⟨t', ht', _⟩ := (History.cons answered rest).task hrow
      rw [hnone] at ht'
      cases ht'

theorem History.isFiled {s s' : TaskStore} {entries : List Entry} (h : History s entries s')
    (hfiled : IsFiled s) : IsFiled s' := by
  induction h with
  | nil s => exact hfiled
  | cons answered _ ih =>
    refine ih fun x t ht => ?_
    have hmoves := moves_of_answered x answered
    rw [ht] at hmoves
    exact hmoves.id_eq (hfiled x)

/-- **Final states are final, and the audit trail is complete.** From any point of a history of a
new store on, whatever is called: no task is removed; what was fixed when it was made stays; its
status only goes from pending to a final one; and once it is final, the whole record stays. Of the
calls that were to finish a task which was added as pending, one has succeeded if its status is
final, and none if it is not.

The count is over the whole history from the new store on. Before the task was added nothing under
its identifier could be finished, since a call about a task that is not there is an error; after
it was added the count is that of `History.task`. -/
theorem final_and_complete {before after : List Entry} {s₁ s₂ : TaskStore}
    (h₁ : History .empty before s₁) (h₂ : History s₁ after s₂) :
    (∀ x t, s₁.find? x = some t → ∃ t', s₂.find? x = some t' ∧ t'.origin = t.origin ∧
      (t'.status ≠ t.status → t.status = .pending ∧
        (t'.status = .processed ∨ t'.status = .failed ∨ t'.status = .skipped)) ∧
      (t.status.isTerminal = true → t' = t)) ∧
    (∀ now t, ⟨now, .insert t, .ok ()⟩ ∈ before ++ after → t.status = .pending →
      ∃ t', s₂.find? t.id = some t' ∧
        timesFinished t.id (before ++ after) = if t'.status.isTerminal then 1 else 0) := by
  refine ⟨fun x t ht => ?_, fun now t hmem hpending => ?_⟩
  · obtain ⟨t', ht', horigin, hfinal, _⟩ := h₂.task ht
    refine ⟨t', ht', horigin, fun hne => ?_, fun h => hfinal (Task.isTerminal_iff.mp h)⟩
    have hpending : t.status = .pending := Decidable.byContradiction fun hterminal => by
      rw [hfinal hterminal] at hne
      exact hne rfl
    refine ⟨hpending, ?_⟩
    rw [hpending] at hne
    revert hne
    cases t'.status <;> simp
  · -- cut the history where the task was added
    obtain ⟨early, late, hcut⟩ := List.append_of_mem hmem
    have h := h₁.append h₂
    rw [hcut] at h ⊢
    obtain ⟨s, hearly, hlate⟩ := h.split
    cases hlate with
    | cons answered rest =>
      have hmoves := moves_of_answered t.id answered
      -- what was under the identifier before and after the call is named, so that the cases of
      -- `Entry.Moves` can be told apart: the call succeeded, hence the identifier was free
      generalize hbefore : s.find? t.id = row at hmoves
      generalize hafter : (s.respond now (.insert t)).2.find? t.id = row' at hmoves
      cases hmoves with
      | kept h => simp [Entry.changes] at h
      | inserted _ =>
        obtain ⟨t', ht', _, _, hcount⟩ := rest.task hafter
        refine ⟨t', ht', ?_⟩
        have hnone := hearly.timesFinished_of_none hbefore
        unfold timesFinished at hcount hnone ⊢
        rw [List.countP_append, List.countP_cons, hnone, hcount]
        by_cases hdone : t'.status = .pending
        · simp [hdone, Entry.finishes, TaskStatus.isTerminal]
        · simp [hdone, hpending, Entry.finishes, TaskStatus.isTerminal]

/-- What becomes of a task that one sweeper claims: another one cannot settle it, its holder can,
and after that nobody can cancel it. -/
def settledOnce : List Entry :=
  [⟨.epoch, .claim "" "first" .last .epoch,
      .ok (some { (default : Task) with claimedBy := some "first", claimedUntil := some .last })⟩,
    ⟨.epoch, .markFailed "" "second" "late" .epoch, .ok false⟩,
    ⟨.epoch, .markProcessed "" "first" .epoch, .ok true⟩,
    ⟨.epoch, .markSkipped "" .epoch, .ok false⟩]

/-- Of these calls one has finished the task, which is final. -/
theorem final_and_complete_of_settledOnce :
    ∃ s, History .empty ([⟨.epoch, .insert default, .ok ()⟩] ++ settledOnce) s ∧
      ∃ t, s.find? "" = some t ∧
        timesFinished "" ([⟨.epoch, .insert default, .ok ()⟩] ++ settledOnce) =
          if t.status.isTerminal then 1 else 0 := by
  let s₁ := (TaskStore.empty.respond .epoch (.insert default)).2
  have hbefore : History .empty [⟨.epoch, .insert default, .ok ()⟩] s₁ := .single rfl
  have hafter : History s₁ settledOnce _ := .cons rfl (.cons rfl (.cons rfl (.single rfl)))
  refine ⟨_, hbefore.append hafter, ?_⟩
  exact (final_and_complete hbefore hafter).2 .epoch default List.mem_cons_self rfl

end Gathering.TaskStore
