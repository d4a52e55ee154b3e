/-!
# Maps with text keys

A finite map from texts to values, kept as a list of entries in ascending order
of their keys. The order is part of the map: whoever lists the entries gets them
by key, and two maps with the same entries are the same map.

`find?_insert` and `find?_erase` say what the two operations do to every key.
-/

namespace Gathering

variable {α : Type}

/-- Entries in ascending order of their keys, no key twice. -/
abbrev Ascending (entries : List (String × α)) : Prop :=
  entries.Pairwise fun a b => a.1 < b.1

/-- Puts an entry in its place among ascending entries, over an entry with the same key. -/
def setEntry (key : String) (value : α) : List (String × α) → List (String × α)
  | [] => [(key, value)]
  | (other, old) :: rest =>
    if key < other then (key, value) :: (other, old) :: rest
    else if key = other then (key, value) :: rest
    else (other, old) :: setEntry key value rest

/-- The value of the first entry with a key. -/
def valueAt (key : String) : List (String × α) → Option α
  | [] => none
  | (other, value) :: rest => if key = other then some value else valueAt key rest

/-- The keys after an entry was put in its place. -/
theorem mem_setEntry {key : String} {value : α} {e : String × α} {l : List (String × α)}
    (h : e ∈ setEntry key value l) : e = (key, value) ∨ e ∈ l := by
  induction l with
  | nil => exact .inl (by simpa [setEntry] using h)
  | cons head rest ih =>
    obtain ⟨other, old⟩ := head
    simp only [setEntry] at h
    split at h
    · simpa using h
    · split at h
      · rcases List.mem_cons.1 h with h | h
        · exact .inl h
        · exact .inr (List.mem_cons_of_mem _ h)
      · rcases List.mem_cons.1 h with h | h
        · exact .inr (h ▸ List.mem_cons_self)
        · rcases ih h with h | h
          · exact .inl h
          · exact .inr (List.mem_cons_of_mem _ h)

/-- Of two keys that are neither the same nor in order, the other order holds. -/
theorem lt_of_not_lt_of_ne {a b : String} (h : ¬ a < b) (hne : a ≠ b) : b < a :=
  Classical.byContradiction fun h' =>
    hne (String.le_antisymm (String.not_lt.1 h') (String.not_lt.1 h))

/-- Putting an entry in its place keeps the order. -/
theorem ascending_setEntry (key : String) (value : α) {l : List (String × α)} (h : Ascending l) :
    Ascending (setEntry key value l) := by
  induction l with
  | nil => simp [setEntry]
  | cons head rest ih =>
    obtain ⟨other, old⟩ := head
    have ⟨hhead, hrest⟩ := List.pairwise_cons.1 h
    simp only [setEntry]
    split
    · next hlt =>
      refine List.pairwise_cons.2 ⟨fun e he => ?_, h⟩
      rcases List.mem_cons.1 he with rfl | he
      · exact hlt
      · exact String.lt_trans hlt (hhead e he)
    · next hnlt =>
      split
      · next heq => exact List.pairwise_cons.2 ⟨fun e he => heq ▸ hhead e he, hrest⟩
      · next hne =>
        refine List.pairwise_cons.2 ⟨fun e he => ?_, ih hrest⟩
        rcases mem_setEntry he with rfl | he
        · exact lt_of_not_lt_of_ne hnlt hne
        · exact hhead e he

/-- **A finite map with text keys.** -/
structure Keyed (α : Type) where
  /-- The entries by key. -/
  entries : List (String × α)
  /-- The keys ascend. -/
  ascending : Ascending entries

namespace Keyed

/-- The map without entries. -/
def empty : Keyed α := ⟨[], .nil⟩

instance : Inhabited (Keyed α) := ⟨empty⟩

/-- The value of a key. -/
def find? (m : Keyed α) (key : String) : Option α :=
  valueAt key m.entries

/-- The map with a value for a key, in place of an older one. -/
def insert (m : Keyed α) (key : String) (value : α) : Keyed α :=
  ⟨setEntry key value m.entries, ascending_setEntry key value m.ascending⟩

/-- The map without a key. -/
def erase (m : Keyed α) (key : String) : Keyed α :=
  ⟨m.entries.filter fun e => e.1 != key, m.ascending.filter _⟩

/-- The values by key. -/
def values (m : Keyed α) : List α :=
  m.entries.map (·.2)

/-! ## What the operations do to a key -/

theorem valueAt_setEntry (key : String) (value : α) (l : List (String × α)) (k : String) :
    valueAt k (setEntry key value l) = if k = key then some value else valueAt k l := by
  induction l with
  | nil => simp [setEntry, valueAt]
  | cons head rest ih =>
    obtain ⟨other, old⟩ := head
    simp only [setEntry]
    split
    · simp [valueAt]
    · split
      · next heq => by_cases h : k = key <;> simp_all [valueAt]
      · next hne => by_cases h : k = other <;> simp_all [valueAt, Ne.symm hne]

/-- An inserted key has its value, and every other key the value that it had. -/
theorem find?_insert (m : Keyed α) (key : String) (value : α) (k : String) :
    (m.insert key value).find? k = if k = key then some value else m.find? k :=
  valueAt_setEntry key value m.entries k

/-- An erased key has no value, and every other key the value that it had. -/
theorem find?_erase (m : Keyed α) (key k : String) :
    (m.erase key).find? k = if k = key then none else m.find? k := by
  obtain ⟨l, hl⟩ := m
  simp only [erase, find?]
  induction l with
  | nil => simp [valueAt]
  | cons head rest ih =>
    obtain ⟨other, old⟩ := head
    have ih := ih (List.pairwise_cons.1 hl).2
    by_cases h : other = key
    · by_cases hk : k = key <;> simp_all [valueAt]
    · by_cases hk : k = other <;> simp_all [valueAt]

end Keyed

end Gathering
