import Gathering.Proofs.Store.Due

/-!
# The earliest tasks that are due

A store is asked for a number of tasks that are due, and lists the earliest of them. The
listing is a matter of the stored tasks alone. Whoever goes through them takes them in
some order (`TaskStore.Enumerates`), sorts those that are due, and cuts off the rest; and
neither the order nor the way of sorting shows in the end, because of two tasks with
different identifiers one comes strictly before the other (`TaskStore.due_eq_take`). For
the same reason two stores with the same tasks list the same, in whatever order the tasks
were added.

What is cut off comes after what is listed, and who asks for more gets what he got before,
and then more (`TaskStore.listsEarliest`).
-/

namespace Gathering

namespace Task

variable {s t : Task} {l l' : List Task}

theorem isDue_eq (t : Task) (now : Instant) :
    t.isDue now = decide (t.status = .pending ∧ t.scheduledAt ≤ now) := by
  rw [Bool.eq_iff_iff, decide_eq_true_iff, isDue, Bool.and_eq_true, isPending_iff,
    decide_eq_true_iff]

theorem Precedes.asymm (h : s.Precedes t) : ¬ t.Precedes s := by
  rintro (hback | ⟨heq, hback⟩)
  · rcases h with h | ⟨heq, -⟩
    · exact Instant.not_lt.mpr (Instant.le_of_lt h) hback
    · exact Instant.not_lt.mpr (heq ▸ Instant.le_refl _) hback
  · rcases h with h | ⟨-, h⟩
    · exact Instant.not_lt.mpr (heq ▸ Instant.le_refl _) h
    · exact String.lt_irrefl _ (String.lt_trans h hback)

theorem pairwise_precedes (hids : (l.map (·.id)).Nodup)
    (hsorted : l.Pairwise fun a b => a.comesBefore b) : l.Pairwise Precedes :=
  hsorted.imp₂ (fun _ _ => Precedes.of_comesBefore) (List.pairwise_map.mp hids)

/-- **Tasks with different identifiers have one order**, whatever way they are sorted. -/
theorem eq_of_sorted (hids : (l.map (·.id)).Nodup) (hperm : l.Perm l')
    (hl : l.Pairwise fun a b => a.comesBefore b) (hl' : l'.Pairwise fun a b => a.comesBefore b) :
    l = l' :=
  hperm.eq_of_pairwise (fun _ _ _ _ hab hba => absurd hba hab.asymm) (pairwise_precedes hids hl)
    (pairwise_precedes ((hperm.map _).nodup_iff.mp hids) hl')

end Task

namespace TaskStore

variable {s s' : TaskStore} {now : Instant} {limit : Nat} {order order' sorting : List Task}
  {t u : Task}

theorem pairwise_sorted (tasks : List Task) :
    (sorted tasks).Pairwise fun a b => a.comesBefore b := by
  unfold sorted
  exact @List.pairwise_mergeSort _ Task.comesBefore
    (fun _ _ _ => Task.comesBefore_trans) Task.comesBefore_total tasks

/-! ## Going through the tasks of a store

The claims about the order do not speak of how the tasks are kept. They are about any list in
which each task of the store comes once. -/

/-- **A list in which each task of a store comes once**, as whoever goes through the store may find
them. -/
def Enumerates (s : TaskStore) (order : List Task) : Prop :=
  order.Nodup ∧ ∀ t, t ∈ order ↔ ∃ id, s.find? id = some t

/-- The values by key are one such list. -/
theorem IsFiled.enumerates_values (hfiled : IsFiled s) : s.Enumerates s.rows.values :=
  ⟨(List.pairwise_map.mp hfiled.nodup_ids).imp fun hne heq => hne (congrArg Task.id heq),
    fun _ => Keyed.mem_values_iff⟩

/-- All ways to go through a store are the same but for the order. -/
theorem Enumerates.perm (h : s.Enumerates order) (h' : s.Enumerates order') :
    order.Perm order' :=
  (List.perm_ext_iff_of_nodup h.1 h'.1).mpr fun t => (h.2 t).trans (h'.2 t).symm

theorem Enumerates.nodup_ids (h : s.Enumerates order) (hfiled : IsFiled s) :
    (order.map (·.id)).Nodup :=
  ((h.perm hfiled.enumerates_values).map _).nodup_iff.mpr hfiled.nodup_ids

/-- **What is listed is the beginning of the sorted tasks that are due**, in whatever order they
were found and by whatever way they were sorted.

Two sorted lists of the same tasks with different identifiers are equal (`Task.eq_of_sorted`), so
the way of sorting cannot be told from the result, and cutting both off at the same place leaves
the same. -/
theorem due_eq_take (hfiled : IsFiled s) (henum : s.Enumerates order)
    (hperm : sorting.Perm (order.filter (·.isDue now)))
    (hsorting : sorting.Pairwise fun a b => a.comesBefore b) :
    s.due now limit = sorting.take limit := by
  have hvalues : (sorted (s.rows.values.filter (·.isDue now))).Perm sorting :=
    ((List.mergeSort_perm _ _).trans
      ((hfiled.enumerates_values.perm henum).filter _)).trans hperm.symm
  have hids : (sorting.map (·.id)).Nodup :=
    (hperm.map _).nodup_iff.mpr ((henum.nodup_ids hfiled).sublist (List.filter_sublist.map _))
  unfold due
  rw [Task.eq_of_sorted ((hvalues.map _).nodup_iff.mpr hids) hvalues (pairwise_sorted _) hsorting]

/-- Stores with the same tasks list the same. -/
theorem due_congr (hfiled : IsFiled s) (hfiled' : IsFiled s') (henum : s.Enumerates order)
    (henum' : s'.Enumerates order) : s.due now limit = s'.due now limit :=
  (due_eq_take hfiled henum (List.mergeSort_perm _ _) (pairwise_sorted _)).trans
    (due_eq_take hfiled' henum' (List.mergeSort_perm _ _) (pairwise_sorted _)).symm

/-! ## What is left out

The sorted tasks that are due are what is listed, and then the rest. In that list everything
stands in strict order, hence every task of the rest comes after all that are listed. -/

theorem sorted_due_eq (s : TaskStore) (now : Instant) (limit : Nat) :
    sorted (s.rows.values.filter (·.isDue now)) =
      s.due now limit ++ (sorted (s.rows.values.filter (·.isDue now))).drop limit :=
  (List.take_append_drop limit _).symm

/-- **A task that is due and left out comes after all that are listed.** -/
theorem precedes_of_notMem_due (hfiled : IsFiled s) (ht : ∃ id, s.find? id = some t)
    (hdue : t.isDue now = true) (hout : t ∉ s.due now limit) (hu : u ∈ s.due now limit) :
    u.Precedes t := by
  have hmem : t ∈ sorted (s.rows.values.filter (·.isDue now)) :=
    List.mem_mergeSort.mpr (List.mem_filter.mpr ⟨Keyed.mem_values_iff.mpr ht, hdue⟩)
  have hids : ((sorted (s.rows.values.filter (·.isDue now))).map (·.id)).Nodup :=
    ((List.mergeSort_perm _ _).map _).nodup_iff.mpr
      (hfiled.nodup_ids.sublist (List.filter_sublist.map _))
  have hstrict := Task.pairwise_precedes hids (pairwise_sorted _)
  rw [sorted_due_eq s now limit] at hmem hstrict
  exact (List.pairwise_append.mp hstrict).2.2 u hu t ((List.mem_append.mp hmem).resolve_left hout)

theorem length_due (henum : s.Enumerates order) (hfiled : IsFiled s) :
    (s.due now limit).length = min limit (order.countP (·.isDue now)) := by
  rw [due_eq_take hfiled henum (List.mergeSort_perm _ _) (pairwise_sorted _), List.length_take,
    List.length_mergeSort, List.countP_eq_length_filter]

/-! ## Adding tasks

A store can be filled in the order of any such list, if the identifiers differ, and then it holds
the same tasks. So what holds of all stores with the same tasks holds in whatever order they were
added. -/

/-- **The store after tasks were added**, one after the other. -/
def insertAll (s : TaskStore) (tasks : List Task) : Except Error TaskStore :=
  tasks.foldlM insert s

/-- A task with a new identifier can be added, and nothing else changes. -/
theorem exists_insert (hnew : s.find? t.id = none) :
    ∃ s', s.insert t = .ok s' ∧ ∀ x, s'.find? x = if x = t.id then some t else s.find? x := by
  refine ⟨⟨s.rows.insert t.id t⟩, ?_, Keyed.find?_insert s.rows t.id t⟩
  unfold insert
  rw [hnew]

/-- **Tasks with new and different identifiers can be added**, and then they are stored.

By induction on the tasks: after the first one has been added, the others are still new, since
their identifiers differ from it. -/
theorem exists_insertAll {tasks : List Task} (hids : (tasks.map (·.id)).Nodup)
    (hnew : ∀ t ∈ tasks, s.find? t.id = none) :
    ∃ s', s.insertAll tasks = .ok s' ∧
      ∀ id t, s'.find? id = some t ↔ s.find? id = some t ∨ t ∈ tasks ∧ t.id = id := by
  induction tasks generalizing s with
  | nil => exact ⟨s, rfl, by simp⟩
  | cons first tasks ih =>
    obtain ⟨hother, hids⟩ := List.nodup_cons.mp hids
    obtain ⟨hfirst, hnew⟩ := List.forall_mem_cons.mp hnew
    obtain ⟨s₁, hinsert, hfind⟩ := exists_insert hfirst
    have hne : ∀ t ∈ tasks, t.id ≠ first.id := fun t ht heq =>
      hother (List.mem_map.mpr ⟨t, ht, heq⟩)
    obtain ⟨s', hrest, hfind'⟩ := ih hids fun t ht => by
      rw [hfind, if_neg (hne t ht)]
      exact hnew t ht
    refine ⟨s', ?_, fun id t => ?_⟩
    · unfold insertAll
      rw [List.foldlM_cons, hinsert]
      exact hrest
    · -- whether a task is stored in the end is decided by its identifier: that of the first task,
      -- which cannot be that of another one, or a different one
      rw [hfind', hfind, List.mem_cons]
      by_cases hid : id = first.id
      · subst hid
        rw [if_pos rfl, hfirst]
        grind
      · rw [if_neg hid]
        grind

/-- Tasks that were added to an empty store are what it holds. -/
theorem exists_ofTasks (hids : (order.map (·.id)).Nodup) :
    ∃ s', insertAll .empty order = .ok s' ∧ IsFiled s' ∧ s'.Enumerates order := by
  obtain ⟨s', hinsert, hfind⟩ := exists_insertAll (s := .empty) hids fun _ _ => rfl
  have hstored : ∀ id t, s'.find? id = some t ↔ t ∈ order ∧ t.id = id := fun id t =>
    (hfind id t).trans (or_iff_right nofun)
  refine ⟨s', hinsert, fun id t ht => ((hstored id t).mp ht).2, ?_, fun t => ?_⟩
  · exact (List.pairwise_map.mp hids).imp fun hne heq => hne (congrArg Task.id heq)
  · exact ⟨fun ht => ⟨t.id, (hstored _ t).mpr ⟨ht, rfl⟩⟩, fun ⟨id, ht⟩ => ((hstored id t).mp ht).1⟩

/-! ## The listing -/

/-- **The tasks of a store that are due at an instant are listed as they should be.** -/
structure ListsEarliest (s : TaskStore) (now : Instant) (limit : Nat) : Prop where
  /-- They are in strict order of time and identifier. -/
  ascends : (s.due now limit).Pairwise Task.Precedes
  /-- None is listed twice. -/
  nodup : (s.due now limit).Nodup
  /-- Each is stored, pending, and scheduled for now or earlier. -/
  due : ∀ t ∈ s.due now limit,
    (∃ id, s.find? id = some t) ∧ t.status = .pending ∧ t.scheduledAt ≤ now
  /-- There are as many as were asked for, or all such tasks. -/
  length : ∀ order, s.Enumerates order → (s.due now limit).length =
    min limit (order.countP fun t => t.status = .pending ∧ t.scheduledAt ≤ now)
  /-- Such a task that is not listed comes after all that are. -/
  earliest : ∀ t, (∃ id, s.find? id = some t) → t.status = .pending → t.scheduledAt ≤ now →
    t ∉ s.due now limit → ∀ u ∈ s.due now limit, u.Precedes t
  /-- In whatever order one goes through the store, and whatever way one sorts what is due: it is
  the beginning of that. -/
  anyOrder : ∀ order sorting : List Task, s.Enumerates order →
    sorting.Perm (order.filter fun t => t.status = .pending ∧ t.scheduledAt ≤ now) →
    (sorting.Pairwise fun a b => a.comesBefore b) → s.due now limit = sorting.take limit
  /-- In whatever order the tasks are added to an empty store, it lists the same. -/
  anyInsertion : ∀ order, s.Enumerates order →
    ∃ s', insertAll .empty order = .ok s' ∧ s'.due now limit = s.due now limit
  /-- Any other store with the same tasks lists the same. -/
  sameTasks : ∀ s', IsFiled s' → (∀ t, (∃ id, s'.find? id = some t) ↔ ∃ id, s.find? id = some t) →
    s'.due now limit = s.due now limit
  /-- Who asks for more gets these first. -/
  grows : ∀ more, limit ≤ more → s.due now limit <+: s.due now more

/-- **Every store of tasks under their identifiers lists the earliest** that are due, at every
instant and for every number that is asked for.

Zero is such a number, and then nothing is listed; and so is one that is greater than the number
of tasks, and then all of them are. -/
theorem listsEarliest (hfiled : IsFiled s) (now : Instant) (limit : Nat) :
    ListsEarliest s now limit where
  ascends := hfiled.pairwise_due now limit
  nodup := (List.pairwise_map.mp (hfiled.nodup_due now limit)).imp
    fun hne heq => hne (congrArg Task.id heq)
  due t ht := by
    obtain ⟨hstored, hdue⟩ := mem_of_mem_due ht
    exact ⟨hstored, of_decide_eq_true ((t.isDue_eq now).symm.trans hdue)⟩
  length order henum := by
    rw [length_due henum hfiled, funext fun t : Task => t.isDue_eq now]
  earliest t ht hpending hscheduled hout u hu :=
    precedes_of_notMem_due hfiled ht
      ((t.isDue_eq now).trans (decide_eq_true ⟨hpending, hscheduled⟩)) hout hu
  anyOrder order sorting henum hperm hsorting := by
    rw [← funext fun t : Task => t.isDue_eq now] at hperm
    exact due_eq_take hfiled henum hperm hsorting
  anyInsertion order henum := by
    obtain ⟨s', hinsert, hfiled', henum'⟩ := exists_ofTasks (henum.nodup_ids hfiled)
    exact ⟨s', hinsert, due_congr hfiled' hfiled henum' henum⟩
  sameTasks s' hfiled' hsame :=
    due_congr hfiled' hfiled
      ⟨hfiled.enumerates_values.1, fun t => (hfiled.enumerates_values.2 t).trans (hsame t).symm⟩
      hfiled.enumerates_values
  grows _ hle := List.take_prefix_take_left hle

/-- A task that is due at the epoch. -/
def dueAtEpoch (id : String) : Task := { (default : Task) with id := id }

/-- Two tasks that are due at one instant, the second one added first. -/
def tied : TaskStore := ⟨(Keyed.empty.insert "b" (dueAtEpoch "b")).insert "a" (dueAtEpoch "a")⟩

/-- Of two tasks that are due at one instant, the one with the smaller identifier is listed. -/
theorem listsEarliest_of_tied :
    IsFiled tied ∧ ListsEarliest tied .epoch 1 ∧ (tied.due .epoch 1).map (·.id) = ["a"] := by
  have hfiled : IsFiled tied := by
    intro x t ht
    unfold tied find? at ht
    rw [Keyed.find?_insert, Keyed.find?_insert] at ht
    split at ht
    · next hx => exact Option.some_inj.mp ht ▸ hx.symm
    · split at ht
      · next hx => exact Option.some_inj.mp ht ▸ hx.symm
      · cases ht
  have hsorted : [dueAtEpoch "a", dueAtEpoch "b"].Perm (tied.rows.values.filter (·.isDue .epoch)) :=
    .refl _
  have hdue : tied.due .epoch 1 = [dueAtEpoch "a"] :=
    due_eq_take hfiled hfiled.enumerates_values hsorted (by decide +kernel)
  exact ⟨hfiled, listsEarliest hfiled .epoch 1, by rw [hdue]; rfl⟩

end TaskStore

end Gathering
