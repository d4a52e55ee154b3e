import Gathering.Proofs.Program.Protocol
import Gathering.Scheduler.Planning

/-!
# Tasks that are made

A scheduler makes a task from a draft that it has found sound. Such a task is
pending, has not been tried, and allows at least one attempt (`Task.IsMade.fresh`).
Whatever schedulers add to the store is a task of this kind: making a task ends
with adding what a sound draft has become (`TaskDraft.isMade_toTask`), and nothing
else that they do adds any.
-/

namespace Gathering

/-- **A task that was made from a draft**, by somebody at some time.

Of the draft, its number of attempts and the time nothing is known but that the draft was found
sound. -/
def Task.IsMade (t : Task) : Prop :=
  ∃ (draft : TaskDraft) (defaultMaxRetries : Nat) (id : String) (now : Instant),
    draft.make defaultMaxRetries id now = .ok t

/-- **A sound draft** names an event, its action was read from a text, and it allows an attempt. -/
theorem TaskDraft.sound_of_check {draft : TaskDraft} {n : Nat} {sound : Sound}
    (h : draft.check n = .ok sound) :
    Text.isBlank draft.eventId = false ∧ (∃ text, Action.parse text = .ok sound.action) ∧
      0 < sound.maxRetries := by
  unfold check at h
  by_cases hblank : Text.isBlank draft.eventId = true
  · rw [if_pos hblank] at h
    cases h
  · rw [if_neg hblank] at h
    obtain ⟨text, _, h⟩ := exists_of_bind_eq_ok h
    obtain ⟨action, haction, h⟩ := exists_of_bind_eq_ok h
    obtain ⟨_, _, h⟩ := exists_of_bind_eq_ok h
    change (if draft.maxRetries.getD n = 0 then _ else _) = _ at h
    split at h
    · cases h
    · next hpos =>
      cases h
      exact ⟨Bool.eq_false_iff.mpr hblank, ⟨text, haction⟩, Nat.pos_of_ne_zero hpos⟩

theorem TaskDraft.maxRetries_pos_of_check {draft : TaskDraft} {n : Nat} {sound : Sound}
    (h : draft.check n = .ok sound) : 0 < sound.maxRetries :=
  (sound_of_check h).2.2

/-- **A task that was made** is pending, has not been tried and allows an attempt.

The first two are how every task is made. The third is what the draft was checked for. -/
theorem Task.IsMade.fresh {t : Task} (h : t.IsMade) :
    t.status = .pending ∧ t.retries = 0 ∧ 0 < t.maxRetries := by
  obtain ⟨draft, n, id, now, hmake⟩ := h
  obtain ⟨sound, hcheck, htask⟩ := exists_of_bind_eq_ok hmake
  cases htask
  exact ⟨rfl, rfl, TaskDraft.maxRetries_pos_of_check hcheck⟩

/-- A draft that was found sound makes a task. -/
theorem TaskDraft.isMade_toTask {draft : TaskDraft} {n : Nat} {sound : Sound}
    (h : draft.check n = .ok sound) (id : String) (now : Instant) :
    (draft.toTask sound id now).IsMade := by
  refine ⟨draft, n, id, now, ?_⟩
  unfold make
  rw [h]
  rfl

end Gathering
