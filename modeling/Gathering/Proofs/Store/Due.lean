import Gathering.Proofs.Keyed
import Gathering.Proofs.Store.Finality
import Gathering.Proofs.Time.Order

/-!
# The tasks that are due

The listing of tasks that are due is in the order of time, and tasks of one
instant are in the order of their identifiers (`Task.Precedes`). In a store where
every task is under its identifier the order is strict, so that no task is listed
twice; and what is listed is stored. Of the tasks of an event, all are listed.

The store goes through its tasks in an order that is not specified, so nothing may
depend on it. What makes the result independent is that the order by which the tasks
are sorted tells any two of them apart: equal instants are decided by identifiers,
and these differ because each task is stored under its own (`TaskStore.IsFiled`).
-/

namespace Gathering

namespace Task

variable {r s t : Task}

/-- **One task comes strictly before another**: it is due earlier, or at the same instant and has
the smaller identifier. -/
def Precedes (s t : Task) : Prop :=
  s.scheduledAt < t.scheduledAt ∨ s.scheduledAt = t.scheduledAt ∧ s.id < t.id

theorem comesBefore_iff :
    s.comesBefore t = true ↔
      s.scheduledAt < t.scheduledAt ∨ s.scheduledAt = t.scheduledAt ∧ s.id ≤ t.id := by
  simp [comesBefore]

theorem comesBefore_trans (h : r.comesBefore s = true) (h' : s.comesBefore t = true) :
    r.comesBefore t = true := by
  rw [comesBefore_iff] at h h' ⊢
  rcases h with h | ⟨heq, hid⟩
  · refine .inl (h'.elim (fun h' => ?_) fun ⟨heq', _⟩ => heq' ▸ h)
    exact Instant.lt_of_lt_of_le h (Instant.le_of_lt h')
  · rw [heq]
    exact h'.imp_right fun ⟨heq', hid'⟩ => ⟨heq', String.le_trans hid hid'⟩

theorem comesBefore_total (s t : Task) : (s.comesBefore t || t.comesBefore s) = true := by
  rw [Bool.or_eq_true, comesBefore_iff, comesBefore_iff]
  rcases Instant.lt_trichotomy s.scheduledAt t.scheduledAt with h | h | h
  · exact .inl (.inl h)
  · rcases String.le_total s.id t.id with hid | hid
    · exact .inl (.inr ⟨h, hid⟩)
    · exact .inr (.inr ⟨h.symm, hid⟩)
  · exact .inr (.inl h)

/-- Of tasks with different identifiers one comes strictly before the other. -/
theorem Precedes.of_comesBefore (h : s.comesBefore t = true) (hid : s.id ≠ t.id) :
    s.Precedes t :=
  (comesBefore_iff.mp h).imp_right fun ⟨heq, hle⟩ =>
    ⟨heq, lt_of_not_lt_of_ne (String.not_lt.mpr hle) (Ne.symm hid)⟩

end Task

namespace TaskStore

variable {s : TaskStore} {now : Instant} {limit : Nat} {t : Task}

theorem length_due_le (s : TaskStore) (now : Instant) (limit : Nat) :
    (s.due now limit).length ≤ limit := by
  unfold due
  exact List.length_take_le limit _

/-- **What is listed is stored and due.** -/
theorem mem_of_mem_due (h : t ∈ s.due now limit) :
    (∃ x, s.find? x = some t) ∧ t.isDue now = true := by
  have hmem := List.mem_of_mem_take h
  unfold sorted at hmem
  obtain ⟨hvalue, hdue⟩ := List.mem_filter.mp (List.mem_mergeSort.mp hmem)
  exact ⟨Keyed.mem_values_iff.mp hvalue, hdue⟩

theorem IsFiled.nodup_ids (hfiled : IsFiled s) : (s.rows.values.map (·.id)).Nodup := by
  have hkeys : s.rows.values.map (·.id) = s.rows.entries.map (·.1) := by
    unfold Keyed.values
    rw [List.map_map]
    exact List.map_congr_left fun e he => hfiled e.1 e.2 (Keyed.mem_entries_iff.mp he)
  rw [hkeys]
  exact s.rows.nodup_keys

/-- **In a filed store no task is listed twice.** -/
theorem IsFiled.nodup_due (hfiled : IsFiled s) (now : Instant) (limit : Nat) :
    ((s.due now limit).map (·.id)).Nodup := by
  unfold due sorted
  rw [List.map_take]
  refine List.Pairwise.take ?_
  have hperm := List.mergeSort_perm (s.rows.values.filter (·.isDue now)) Task.comesBefore
  refine (hperm.map (·.id)).nodup_iff.mpr ?_
  exact hfiled.nodup_ids.sublist (List.filter_sublist.map _)

/-- **In a filed store the listing is in strict order.** -/
theorem IsFiled.pairwise_due (hfiled : IsFiled s) (now : Instant) (limit : Nat) :
    (s.due now limit).Pairwise Task.Precedes := by
  have hsorted : (s.due now limit).Pairwise fun a b => a.comesBefore b = true := by
    unfold due sorted
    have hpairwise := @List.pairwise_mergeSort _ Task.comesBefore
      (fun _ _ _ => Task.comesBefore_trans) Task.comesBefore_total
    exact (hpairwise _).take
  exact hsorted.imp₂ (fun _ _ => Task.Precedes.of_comesBefore)
    (List.pairwise_map.mp (hfiled.nodup_due now limit))

/-! ## The tasks of an event -/

theorem perm_ofEvent (s : TaskStore) (eventId : String) :
    (s.ofEvent eventId).Perm (s.rows.values.filter fun t => t.eventId = eventId) :=
  List.mergeSort_perm _ _

/-- **What is listed of an event is what is stored of it.** Nothing is cut off here. -/
theorem mem_ofEvent_iff {eventId : String} :
    t ∈ s.ofEvent eventId ↔ (∃ x, s.find? x = some t) ∧ t.eventId = eventId := by
  rw [(s.perm_ofEvent eventId).mem_iff, List.mem_filter, Keyed.mem_values_iff, decide_eq_true_iff]
  rfl

theorem IsFiled.find?_of_mem_ofEvent {eventId : String} (hfiled : IsFiled s)
    (h : t ∈ s.ofEvent eventId) : s.find? t.id = some t := by
  obtain ⟨⟨x, hfind⟩, _⟩ := mem_ofEvent_iff.mp h
  exact (hfiled x t hfind).symm ▸ hfind

/-- **In a filed store no task of an event is listed twice.** -/
theorem IsFiled.nodup_ofEvent (hfiled : IsFiled s) (eventId : String) :
    ((s.ofEvent eventId).map (·.id)).Nodup :=
  ((s.perm_ofEvent eventId).map _).nodup_iff.mpr
    (hfiled.nodup_ids.sublist (List.filter_sublist.map _))

end TaskStore

end Gathering
