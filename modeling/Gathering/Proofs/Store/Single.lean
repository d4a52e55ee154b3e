import Gathering.Proofs.Store.History
import Gathering.Proofs.Task.Transition

/-!
# A store with one task

Where one task is looked at on its own, the store that holds it and nothing else
is enough. What the store answers then follows from the task.

The lemmas are for runs that are given step by step: each says what one call
answers, and that what is left is again a store with one task. So a whole run can be
computed without ever opening the map in which the tasks are kept.
-/

namespace Gathering.TaskStore

/-- The store that holds one task. -/
def only (t : Task) : TaskStore := ⟨Keyed.empty.insert t.id t⟩

variable {t t' : Task} {now at_ : Instant}

theorem find?_only (t : Task) : (only t).find? t.id = some t := by
  unfold find? only
  rw [Keyed.find?_insert, if_pos rfl]

theorem respond_insert_empty (t : Task) :
    empty.respond now (.insert t) = (.ok (), only t) :=
  rfl

/-- A transition of the one task leaves the store with what became of it. -/
theorem transition_only {change : Task → Option Task} (h : change t = some t')
    (hid : t'.id = t.id) :
    (only t).transition t.id change = .ok (some t', only t') := by
  unfold transition
  rw [find?_only]
  simp only [h]
  congr 3
  unfold only
  rw [hid]
  simp only [Keyed.insert, Keyed.empty, setEntry, String.lt_irrefl, if_false, if_true]

theorem respond_claim_only {owner : String} {deadline : Instant}
    (h : t.claim? owner deadline at_ = some t') :
    (only t).respond now (.claim t.id owner deadline at_) = (.ok (some t'), only t') := by
  have hid : t'.id = t.id := by rw [(Task.claim?_eq_some_iff.mp h).2]
  have htransition := @transition_only t t' (·.claim? owner deadline at_) h hid
  unfold respond perform
  simp only [htransition]

theorem respond_claim_only_of_held {owner : String} {deadline : Instant}
    (h : t.isClaimable at_ = false) :
    (only t).respond now (.claim t.id owner deadline at_) = (.ok none, only t) := by
  have hclaim : t.claim? owner deadline at_ = none := by
    unfold Task.claim?
    rw [h]
    rfl
  have htransition : (only t).transition t.id (·.claim? owner deadline at_) =
      .ok (none, only t) := by
    unfold transition
    rw [find?_only]
    simp only [hclaim]
  unfold respond perform
  simp only [htransition]

theorem respond_markProcessed_only {owner : String} (h : t.process? owner at_ = some t') :
    (only t).respond now (.markProcessed t.id owner at_) = (.ok true, only t') := by
  have hid : t'.id = t.id := by rw [(Task.process?_eq_some_iff.mp h).2]; rfl
  have htransition := @transition_only t t' (·.process? owner at_) h hid
  unfold respond perform
  simp only [htransition, Except.map, happened, Option.isSome_some]

theorem respond_markSkipped_only (h : t.skip? at_ = some t') :
    (only t).respond now (.markSkipped t.id at_) = (.ok true, only t') := by
  have hid : t'.id = t.id := by rw [(Task.skip?_eq_some_iff.mp h).2]; rfl
  have htransition := @transition_only t t' (·.skip? at_) h hid
  unfold respond perform
  simp only [htransition, Except.map, happened, Option.isSome_some]

theorem respond_get_only (t : Task) :
    (only t).respond now (.get t.id) = (.ok (some t), only t) := by
  unfold respond perform
  simp only [find?_only]

theorem respond_listDue_only (hpending : t.isPending = true) (hdue : t.scheduledAt ≤ at_) :
    (only t).respond now (.listDue at_ 1) = (.ok [t], only t) := by
  have hlist : (only t).due at_ 1 = [t] := by
    simp [due, only, Keyed.values, Keyed.insert, Keyed.empty, setEntry, Task.isDue, hpending, hdue,
      sorted]
  unfold respond perform
  simp only [hlist]

end Gathering.TaskStore
