import Gathering.Cache.TimedMap
import Gathering.Proofs.Keyed

/-!
# What a map with lapsing entries shows

Every operation of the map is told by what it does to the entry of one key. An
entry is written by `set` and by nothing else (`value_perform`), so that whatever
holds of all that is written holds of all that is read.

A scan looks at a range of the entries only. Keys that begin alike follow one
another (`begins_of_between`), and so the range misses no key: a key is listed
exactly if it begins with the text and is visible (`mem_scan_iff`).

Entries that have lapsed stay where they are until they are written again or
removed, and every way to look at the map passes over them.
-/

namespace Gathering.Cache

theorem Entry.isLive_iff {e : Entry} {now : Nat} :
    e.isLive now = true ↔ ∀ d, e.deadline = some d → now < d := by
  unfold isLive
  cases e.deadline <;> simp

/-- An entry that is live was live before. -/
theorem Entry.isLive_of_le {e : Entry} {now later : Nat} (hle : now ≤ later)
    (hlive : e.isLive later = true) : e.isLive now = true :=
  isLive_iff.mpr fun d hd => Nat.lt_of_le_of_lt hle (isLive_iff.mp hlive d hd)

namespace TimedMap

variable {m : TimedMap} {now : Nat} {key start : String} {value : ByteArray}

/-! ## Keys that begin alike -/

/-- Of texts in order, one between a text and a longer one begins with the text. -/
theorem prefix_of_between {s k x : List Char} (hs : ¬ k < s) (hk : k < x) (hx : s <+: x) :
    s <+: k := by
  induction s generalizing k x with
  | nil => exact List.nil_prefix
  | cons a s ih =>
    cases k with
    | nil => exact absurd (List.nil_lt_cons a s) hs
    | cons b k =>
      cases x with
      | nil => exact absurd hk (List.not_lt_nil _)
      | cons c x =>
        obtain ⟨rfl, hx'⟩ := List.cons_prefix_cons.mp hx
        rw [List.cons_lt_cons_iff] at hk hs
        rcases hk with hlt | ⟨rfl, hk⟩
        · exact absurd (.inl hlt) hs
        · exact List.cons_prefix_cons.mpr ⟨rfl, ih (fun h => hs (.inr ⟨rfl, h⟩)) hk hx'⟩

/-- **Keys that begin alike follow one another.** -/
theorem begins_of_between {k x : String} (hs : ¬ k < start) (hk : k < x)
    (hx : begins start x = true) : begins start k = true :=
  List.isPrefixOf_iff_prefix.mpr
    (prefix_of_between (mt String.lt_iff.mpr hs) (String.lt_iff.mp hk)
      (List.isPrefixOf_iff_prefix.mp hx))

/-- A text does not come after what begins with it. -/
theorem not_lt_of_begins {k : String} (h : begins start k = true) : ¬ k < start := by
  intro hlt
  obtain ⟨rest, hrest⟩ := List.isPrefixOf_iff_prefix.mp h
  refine List.not_lt.mpr ?_ (String.lt_iff.mp hlt)
  rw [← hrest]
  exact List.le_append_left

/-! ## Scans

The keys are kept in order. So a scan drops those that come before the text and takes the next
ones as long as they begin with it. -/

variable {α : Type} {l : List (String × α)}

/-- From the text on, the keys that begin with it come first. -/
theorem takeWhile_begins (h : Ascending l) (hstart : ∀ e ∈ l, ¬ e.1 < start) :
    (l.takeWhile fun e => begins start e.1) = l.filter fun e => begins start e.1 := by
  induction l with
  | nil => rfl
  | cons e l ih =>
    obtain ⟨hhead, htail⟩ := List.pairwise_cons.mp h
    by_cases hbegins : begins start e.1 = true
    · rw [List.takeWhile_cons, List.filter_cons, if_pos hbegins, if_pos hbegins,
        ih htail fun e' he' => hstart e' (List.mem_cons_of_mem e he')]
    · rw [List.takeWhile_cons, List.filter_cons, if_neg hbegins, if_neg hbegins]
      refine (List.filter_eq_nil_iff.mpr fun e' he' hbegins' => hbegins ?_).symm
      exact begins_of_between (hstart e List.mem_cons_self) (hhead e' he') hbegins'

/-- **A scan takes all entries whose keys begin with the text.** -/
theorem range_eq_filter (h : Ascending l) :
    ((l.dropWhile fun e => e.1 < start).takeWhile fun e => begins start e.1) =
      l.filter fun e => begins start e.1 := by
  induction l with
  | nil => rfl
  | cons e l ih =>
    obtain ⟨hhead, htail⟩ := List.pairwise_cons.mp h
    by_cases hlt : e.1 < start
    · have hbegins : ¬ begins start e.1 = true := fun hbegins => not_lt_of_begins hbegins hlt
      rw [List.dropWhile_cons, if_pos (decide_eq_true hlt), ih htail, List.filter_cons,
        if_neg hbegins]
    · rw [List.dropWhile_cons, if_neg (by simpa using hlt)]
      refine takeWhile_begins h fun e' he' => ?_
      rcases List.mem_cons.mp he' with rfl | he'
      · exact hlt
      · exact fun hlt' => hlt (String.lt_trans (hhead e' he') hlt')

theorem scan_eq (m : TimedMap) (now : Nat) (start : String) :
    m.scan now start =
      ((m.entries.entries.filter fun e => begins start e.1).filter fun e => e.2.isLive now).map
        (·.1) := by
  unfold scan
  simp only [range_eq_filter m.entries.ascending]

theorem pairwise_scan (m : TimedMap) (now : Nat) (start : String) :
    (m.scan now start).Pairwise (· < ·) := by
  rw [scan_eq]
  exact List.pairwise_map.mpr ((m.entries.ascending.filter _).filter _)

theorem live?_eq_some_iff {e : Entry} :
    m.live? now key = some e ↔ m.entries.find? key = some e ∧ e.isLive now = true := by
  unfold live?
  exact Option.filter_eq_some_iff

/-- **A key is listed exactly if it begins with the text and is visible.** Listed are all such
keys, however many there are. -/
theorem mem_scan_iff :
    key ∈ m.scan now start ↔ begins start key = true ∧ ∃ e, m.live? now key = some e := by
  rw [scan_eq]
  simp only [List.mem_map, List.mem_filter, Prod.exists, exists_and_right, exists_eq_right,
    Keyed.mem_entries_iff, live?_eq_some_iff]
  constructor
  · rintro ⟨e, ⟨hfind, hbegins⟩, hlive⟩
    exact ⟨hbegins, e, hfind, hlive⟩
  · rintro ⟨hbegins, e, hfind, hlive⟩
    exact ⟨e, ⟨hfind, hbegins⟩, hlive⟩

/-! ## Entries

What is found under a key is its entry, as long as that is live. So the lemmas about reading come
from those about entries. -/

theorem get?_eq_some_iff :
    m.get? now key = some value ↔
      ∃ e, m.entries.find? key = some e ∧ e.isLive now = true ∧ e.value = value := by
  unfold get?
  simp only [Option.map_eq_some_iff, live?_eq_some_iff, and_assoc]

/-- What is there was there before, if nothing was written. -/
theorem get?_of_le {later : Nat} (hle : now ≤ later) (h : m.get? later key = some value) :
    m.get? now key = some value := by
  obtain ⟨e, hfind, hlive, hvalue⟩ := get?_eq_some_iff.mp h
  exact get?_eq_some_iff.mpr ⟨e, hfind, Entry.isLive_of_le hle hlive, hvalue⟩

theorem mem_scan_of_get? (hget : m.get? now key = some value) (hbegins : begins start key = true) :
    key ∈ m.scan now start := by
  obtain ⟨e, hfind, hlive, -⟩ := get?_eq_some_iff.mp hget
  exact mem_scan_iff.mpr ⟨hbegins, e, live?_eq_some_iff.mpr ⟨hfind, hlive⟩⟩

theorem map_snd_zip_getMany (m : TimedMap) (now : Nat) (keys : List String) :
    (keys.zip (m.getMany now keys)).map (·.2) = m.getMany now keys :=
  List.map_snd_zip (Nat.le_of_eq (List.length_map ..))

/-- An entry that is written has its bytes and its deadline, and every other key keeps its own. -/
theorem find?_set (ttl : Option Span) (k : String) :
    (m.set now key value ttl).entries.find? k =
      if k = key then some ⟨value, ttl.map fun d => now + d.nanos⟩ else m.entries.find? k :=
  Keyed.find?_insert m.entries key _ k

/-- What is written for a while can be read until the while is over. -/
theorem get?_set_of_lt (m : TimedMap) {now later : Nat} (key : String) (value : ByteArray)
    {ttl : Span} (h : later < now + ttl.nanos) :
    (m.set now key value (some ttl)).get? later key = some value := by
  refine get?_eq_some_iff.mpr ⟨⟨value, some (now + ttl.nanos)⟩, ?_, decide_eq_true h, rfl⟩
  rw [find?_set, if_pos rfl]
  rfl

theorem get?_set_self (m : TimedMap) (now : Nat) (key : String) (value : ByteArray) {ttl : Span}
    (h : 0 < ttl.nanos) : (m.set now key value (some ttl)).get? now key = some value :=
  m.get?_set_of_lt key value (Nat.lt_add_of_pos_right h)

/-- What is written for a while cannot be read once the while is over. -/
theorem get?_set_lapsed (m : TimedMap) {now later : Nat} (key : String) (value : ByteArray)
    {ttl : Span} (h : now + ttl.nanos ≤ later) :
    (m.set now key value (some ttl)).get? later key = none := by
  refine Option.eq_none_iff_forall_ne_some.mpr fun bytes hget => ?_
  obtain ⟨e, hfind, hlive, -⟩ := get?_eq_some_iff.mp hget
  rw [find?_set, if_pos rfl] at hfind
  cases hfind
  exact Nat.not_lt.mpr h (of_decide_eq_true hlive)

end TimedMap

/-- **What a call leaves under a key**: bytes that were there, or those that it writes.

Giving a key another deadline keeps its bytes, so that only `set` is a source of bytes. -/
theorem TimedMap.value_perform {m : TimedMap} {now : Nat} {call : Call} {key : String} {e : Entry}
    (h : (m.perform now call).2.entries.find? key = some e) :
    (∃ old, m.entries.find? key = some old ∧ old.value = e.value) ∨
      ∃ ttl, call = .set key e.value ttl := by
  cases call with
  | ping | get | getMany | scan => exact .inl ⟨e, h, rfl⟩
  | set k value ttl =>
    rw [show (m.perform now (.set k value ttl)).2 = m.set now k value ttl from rfl, find?_set] at h
    split at h
    · next heq =>
      cases h
      exact .inr ⟨ttl, by rw [heq]⟩
    · exact .inl ⟨e, h, rfl⟩
  | delete k =>
    have hfind := Keyed.find?_erase m.entries k key
    rw [show (m.perform now (.delete k)).2.entries = m.entries.erase k from rfl, hfind] at h
    split at h
    · cases h
    · exact .inl ⟨e, h, rfl⟩
  | expire k ttl =>
    rw [show (m.perform now (.expire k ttl)).2 = (m.expire now k ttl).2 from rfl] at h
    unfold expire at h
    split at h
    · next old hold =>
      rw [show ∀ entry, (⟨m.entries.insert k entry⟩ : TimedMap).entries.find? key = _ from
        fun entry => Keyed.find?_insert m.entries k entry key] at h
      split at h
      · next heq =>
        cases h
        exact .inl ⟨old, heq ▸ (live?_eq_some_iff.mp hold).1, rfl⟩
      · exact .inl ⟨e, h, rfl⟩
    · exact .inl ⟨e, h, rfl⟩

end Gathering.Cache
