import Gathering.Keyed

/-!
# The entries of a map

A map with text keys is a list of entries in ascending order, and looking up a
key finds the entry that has it: an entry is in the list exactly if its value is
found under its key (`Keyed.mem_entries_iff`). So what is said about the list of
entries, or of values, can be said about single keys.
-/

namespace Gathering

variable {α : Type} {key : String} {value : α}

/-- **Among ascending entries a key has one value.** -/
theorem Keyed.valueAt_eq_some_iff {l : List (String × α)} (h : Ascending l) :
    valueAt key l = some value ↔ (key, value) ∈ l := by
  induction l with
  | nil => simp [valueAt]
  | cons head rest ih =>
    obtain ⟨other, first⟩ := head
    obtain ⟨hhead, hrest⟩ := List.pairwise_cons.mp h
    have hnot : ∀ v, (other, v) ∉ rest := fun v hmem =>
      String.lt_irrefl other (hhead _ hmem)
    by_cases hkey : key = other
    · subst hkey
      simp [valueAt, hnot, eq_comm]
    · simp [valueAt, hkey, ih hrest]

namespace Keyed

variable {m : Keyed α}

/-- **An entry is there exactly if its value is found.** -/
theorem mem_entries_iff : (key, value) ∈ m.entries ↔ m.find? key = some value :=
  (valueAt_eq_some_iff m.ascending).symm

theorem mem_values_iff : value ∈ m.values ↔ ∃ key, m.find? key = some value := by
  unfold values
  simp only [List.mem_map, Prod.exists, mem_entries_iff, exists_eq_right]

theorem nodup_keys (m : Keyed α) : (m.entries.map (·.1)).Nodup := by
  refine List.pairwise_map.mpr (m.ascending.imp fun hlt heq => ?_)
  rw [heq] at hlt
  exact String.lt_irrefl _ hlt

end Keyed

end Gathering
