import Gathering.Proofs.Cache.TimedMap
import Mathlib.Data.Finset.Card
import Mathlib.Data.Finset.Dedup

/-!
# What a history of the cache makes visible

The map keeps lapsed entries, and each of its operations leaves them out in its
own way. What it shows can be said without entries, though: by looking back at the
calls that were made and at what they were answered, the **history** of the cache.

A key stands as the last `set` of it has left it, unless a `delete` came after.
Its deadline is the one that it was given last, by that `set` or by an `expire`
that was answered with success, and it is visible as long as the clock is strictly
before that deadline (`IsVisible`). All that the map answers follows from this
(`answers_of_history`), so two maps with the same history cannot be told apart,
whatever lapsed entries they still hold.
-/

namespace Gathering.Cache

/-- **One call of a history**: when the cache was called, and what it answered. -/
structure Exchange where
  /-- What the clock of the cache showed. -/
  at_ : Nat
  /-- The call. -/
  call : Call
  /-- The answer. -/
  answer : call.Answer

namespace Exchange

/-- The exchange in which a key was written. -/
abbrev set (now : Nat) (key : String) (value : ByteArray) (ttl : Option Span) : Exchange :=
  ⟨now, .set key value ttl, ()⟩

/-- Whether a key was written or removed, whatever it was before. -/
def replaces (key : String) (x : Exchange) : Bool :=
  match x.call with
  | .set k _ _ | .delete k => k = key
  | _ => false

/-- **The deadline that a key was given**, if it was given one: a `set` gives one, which may be to
live for good, and so does an `expire` that has succeeded. -/
def deadline? (key : String) : Exchange → Option (Option Nat)
  | ⟨now, .set k _ ttl, _⟩ => if k = key then some (ttl.map fun d => now + d.nanos) else none
  | ⟨now, .expire k ttl, true⟩ => if k = key then some (some (now + ttl.nanos)) else none
  | _ => none

/-- **What an exchange does to the entry of a key.** -/
inductive Moves (key : String) : Exchange → Option Entry → Option Entry → Prop
  /-- The entry stays as it is. -/
  | kept {x : Exchange} {e : Option Entry} (h : x.replaces key = false)
      (hdeadline : x.deadline? key = none) : Moves key x e e
  /-- The entry is written. -/
  | written (now : Nat) (value : ByteArray) (ttl : Option Span) (e : Option Entry) :
      Moves key (.set now key value ttl) e (some ⟨value, ttl.map fun d => now + d.nanos⟩)
  /-- The entry is removed. -/
  | removed (now : Nat) (answer : Bool) (e : Option Entry) :
      Moves key ⟨now, .delete key, answer⟩ e none
  /-- The entry gets another deadline. -/
  | renewed (now : Nat) (ttl : Span) (e : Entry) :
      Moves key ⟨now, .expire key ttl, true⟩ (some e)
        (some { e with deadline := some (now + ttl.nanos) })

end Exchange

namespace TimedMap

/-- Giving a key a deadline moves its entry as the answer says. -/
theorem moves_expire (m : TimedMap) (now : Nat) (key k : String) (ttl : Span) :
    Exchange.Moves key ⟨now, .expire k ttl, (m.expire now k ttl).1⟩ (m.entries.find? key)
      ((m.expire now k ttl).2.entries.find? key) := by
  unfold expire
  cases hlive : m.live? now k with
  | none => exact .kept rfl rfl
  | some e =>
    show Exchange.Moves key ⟨now, .expire k ttl, true⟩ _ ((m.entries.insert k _).find? key)
    rw [Keyed.find?_insert]
    by_cases hkey : key = k
    · subst hkey
      rw [if_pos rfl, (live?_eq_some_iff.mp hlive).1]
      exact .renewed now ttl e
    · rw [if_neg hkey]
      exact .kept rfl (if_neg (Ne.symm hkey))

/-- **Every call moves the entries as its exchange says.** -/
theorem moves_perform (m : TimedMap) (now : Nat) (call : Call) (key : String) :
    Exchange.Moves key ⟨now, call, (m.perform now call).1⟩ (m.entries.find? key)
      ((m.perform now call).2.entries.find? key) := by
  cases call with
  | ping | get | getMany | scan => exact .kept rfl rfl
  | set k value ttl =>
    show Exchange.Moves key (.set now k value ttl) _ ((m.set now k value ttl).entries.find? key)
    rw [find?_set]
    by_cases hkey : key = k
    · subst hkey
      rw [if_pos rfl]
      exact .written now value ttl _
    · rw [if_neg hkey]
      exact .kept (decide_eq_false (Ne.symm hkey)) (if_neg (Ne.symm hkey))
  | delete k =>
    show Exchange.Moves key ⟨now, .delete k, (m.live? now k).isSome⟩ _
      ((m.entries.erase k).find? key)
    rw [Keyed.find?_erase]
    by_cases hkey : key = k
    · subst hkey
      rw [if_pos rfl]
      exact .removed now _ _
    · rw [if_neg hkey]
      exact .kept (decide_eq_false (Ne.symm hkey)) rfl
  | expire k ttl => exact m.moves_expire now key k ttl

end TimedMap

/-! ## Histories -/

/-- **A history leads from one map to another**, while the clock does not go back: time passes, or a
call gets the answer of the map. -/
inductive History (t₀ : Nat) (m₀ : TimedMap) : List Exchange → Nat → TimedMap → Prop
  /-- Nothing has happened. -/
  | nil : History t₀ m₀ [] t₀ m₀
  /-- Time has passed. -/
  | waited {t t' : Nat} {m : TimedMap} {h : List Exchange} (run : History t₀ m₀ h t m)
      (later : t ≤ t') : History t₀ m₀ h t' m
  /-- The map was called. -/
  | called {t : Nat} {m : TimedMap} {h : List Exchange} (run : History t₀ m₀ h t m) (call : Call) :
      History t₀ m₀ (h ++ [⟨t, call, (m.perform t call).1⟩]) t (m.perform t call).2

variable {t₀ t t' : Nat} {m₀ m m' : TimedMap} {h more : List Exchange} {key : String}
  {value : ByteArray}

theorem History.append (run : History t₀ m₀ h t m) (run' : History t m more t' m') :
    History t₀ m₀ (h ++ more) t' m' := by
  induction run' with
  | nil => exact (List.append_nil h).symm ▸ run
  | waited _ later ih => exact ih.waited later
  | called _ call ih => exact List.append_assoc .. ▸ ih.called call

/-- **The last time a key was written**, and what has come since: nobody has written or removed it
again. -/
structure LastSet (key : String) (value : ByteArray) (now : Nat) (ttl : Option Span)
    (h since : List Exchange) : Prop where
  /-- It is part of the history. -/
  split : ∃ before, h = before ++ .set now key value ttl :: since
  /-- It was the last time. -/
  last : ∀ x ∈ since, x.replaces key = false

/-- **The deadline that a key was given last**; there is none if it is to live for good. -/
def lastDeadline (key : String) (h : List Exchange) : Option Nat :=
  ((h.filterMap (·.deadline? key)).getLast?).join

/-- **A key stands with a value until a deadline**, by its history. -/
def Stands (h : List Exchange) (key : String) (e : Entry) : Prop :=
  ∃ now ttl since, LastSet key e.value now ttl h since ∧
    e.deadline = lastDeadline key (.set now key e.value ttl :: since)

/-- **A key is visible with a value at a time**, by its history: the last `set` has given it the
value, it was not deleted since, and the time is strictly before the deadline that it was given
last. -/
def IsVisible (h : List Exchange) (key : String) (value : ByteArray) (t : Nat) : Prop :=
  ∃ now ttl since, LastSet key value now ttl h since ∧
    ∀ d, lastDeadline key (.set now key value ttl :: since) = some d → t < d

/-! ## One exchange more

A history grows at its end. So it has to be said how a key stands after one exchange more, and the
exchange was the last `set` of the key or it was not. -/

theorem lastDeadline_concat (key : String) (h : List Exchange) (x : Exchange) :
    lastDeadline key (h ++ [x]) = (x.deadline? key).getD (lastDeadline key h) := by
  unfold lastDeadline
  rw [List.filterMap_append]
  cases hx : x.deadline? key with
  | none => simp [hx]
  | some d => simp [hx]

/-- An exchange that was not the last `set` comes after it. -/
theorem LastSet.concat_iff {now : Nat} {ttl : Option Span} {x : Exchange}
    {since : List Exchange} :
    LastSet key value now ttl (h ++ [x]) (since ++ [x]) ↔
      LastSet key value now ttl h since ∧ x.replaces key = false := by
  constructor
  · rintro ⟨⟨before, hsplit⟩, hlast⟩
    obtain ⟨hsince, hx⟩ := List.forall_mem_append.mp hlast
    rw [← List.cons_append, ← List.append_assoc, List.append_left_inj] at hsplit
    exact ⟨⟨⟨before, hsplit⟩, hsince⟩, hx x (List.mem_singleton_self x)⟩
  · rintro ⟨⟨⟨before, rfl⟩, hlast⟩, hx⟩
    refine ⟨⟨before, by rw [List.append_assoc, List.cons_append]⟩, ?_⟩
    exact List.forall_mem_append.mpr ⟨hlast, List.forall_mem_singleton.mpr hx⟩

/-- What has come since the last `set` ends with the last exchange, unless that was the `set`. -/
theorem LastSet.cases_concat {now : Nat} {ttl : Option Span} {x : Exchange}
    {since : List Exchange} (hset : LastSet key value now ttl (h ++ [x]) since) :
    (since = [] ∧ x = .set now key value ttl) ∨ ∃ since', since = since' ++ [x] := by
  obtain ⟨before, hsplit⟩ := hset.split
  rcases List.eq_nil_or_concat' since with rfl | ⟨since', y, rfl⟩
  · obtain ⟨-, hx⟩ := List.append_inj' hsplit rfl
    exact .inl ⟨rfl, List.singleton_inj.mp hx⟩
  · rw [← List.cons_append, ← List.append_assoc] at hsplit
    obtain ⟨-, hx⟩ := List.append_inj' hsplit rfl
    exact .inr ⟨since', by rw [List.singleton_inj.mp hx]⟩

theorem lastDeadline_set (now : Nat) (key : String) (value : ByteArray) (ttl : Option Span) :
    lastDeadline key [.set now key value ttl] = ttl.map fun d => now + d.nanos := by
  simp [lastDeadline, Exchange.deadline?]

/-- **How a key stands after one exchange more**: it was written in it, or it stood before, was not
replaced, and has perhaps got another deadline. -/
theorem stands_concat_iff {x : Exchange} {e : Entry} :
    Stands (h ++ [x]) key e ↔
      (∃ now ttl, x = .set now key e.value ttl ∧ e.deadline = ttl.map fun d => now + d.nanos) ∨
      (x.replaces key = false ∧
        ∃ d, Stands h key ⟨e.value, d⟩ ∧ e.deadline = (x.deadline? key).getD d) := by
  constructor
  · rintro ⟨now, ttl, since, hset, hdeadline⟩
    rcases hset.cases_concat with ⟨rfl, rfl⟩ | ⟨since', rfl⟩
    · exact .inl ⟨now, ttl, rfl, hdeadline.trans (lastDeadline_set ..)⟩
    · obtain ⟨hset', hx⟩ := LastSet.concat_iff.mp hset
      rw [← List.cons_append, lastDeadline_concat] at hdeadline
      exact .inr ⟨hx, lastDeadline key (.set now key e.value ttl :: since'),
        ⟨now, ttl, since', hset', rfl⟩, hdeadline⟩
  · rintro (⟨now, ttl, rfl, hdeadline⟩ | ⟨hx, d, ⟨now, ttl, since, hset, hd⟩, hdeadline⟩)
    · refine ⟨now, ttl, [], ⟨⟨h, rfl⟩, fun _ hmem => by cases hmem⟩, ?_⟩
      rw [hdeadline, lastDeadline_set]
    · refine ⟨now, ttl, since ++ [x], LastSet.concat_iff.mpr ⟨hset, hx⟩, ?_⟩
      rw [← List.cons_append, lastDeadline_concat, hdeadline, show d = _ from hd]

/-! ## Entries and histories

An entry of the map holds a value and a deadline, and so does what the history tells of a key. The
invariant is that they are the same, for every key. -/

/-- **An exchange that moves an entry keeps the entry told by the history.**

By the ways in which an entry moves. In each of them the exchange either is the `set` that the
history ends with, or it is not and replaces nothing, or it removes the key. -/
theorem stands_iff_of_moves {x : Exchange} {e e' : Option Entry} (hmoves : x.Moves key e e')
    (hstands : ∀ entry, e = some entry ↔ Stands h key entry) (entry : Entry) :
    e' = some entry ↔ Stands (h ++ [x]) key entry := by
  rw [stands_concat_iff]
  cases hmoves with
  | kept hreplaces hdeadline =>
    rw [hstands, hdeadline]
    constructor
    · exact fun hentry => .inr ⟨hreplaces, entry.deadline, hentry, rfl⟩
    · rintro (⟨now, ttl, rfl, -⟩ | ⟨-, d, hentry, hd⟩)
      · exact absurd hreplaces (by simp [Exchange.replaces])
      · obtain rfl : entry.deadline = d := hd
        exact hentry
  | written now value ttl =>
    constructor
    · rintro hentry
      cases hentry
      exact .inl ⟨now, ttl, rfl, rfl⟩
    · rintro (⟨now, ttl, hx, hd⟩ | ⟨hreplaces, -⟩)
      · cases hx
        exact congrArg some (by cases entry; cases hd; rfl)
      · exact absurd hreplaces (by simp [Exchange.replaces])
  | removed now answer =>
    constructor
    · exact fun hentry => by cases hentry
    · rintro (⟨now, ttl, hx, -⟩ | ⟨hreplaces, -⟩)
      · cases hx
      · exact absurd hreplaces (by simp [Exchange.replaces])
  -- only here the deadline that the history tells changes, together with that of the entry
  | renewed now ttl old =>
    constructor
    · rintro hentry
      cases hentry
      refine .inr ⟨rfl, old.deadline, (hstands old).mp rfl, ?_⟩
      simp [Exchange.deadline?]
    · rintro (⟨now, ttl, hx, -⟩ | ⟨-, d, hentry, hd⟩)
      · cases hx
      · cases (hstands _).mpr hentry
        have hd' : entry.deadline = some (now + ttl.nanos) := by
          simpa [Exchange.deadline?] using hd
        exact congrArg some (by cases entry; cases hd'; rfl)

/-- **The entry of a key is the one that the history tells.** -/
theorem History.find?_eq_some_iff (run : History t₀ .empty h t m) {e : Entry} :
    m.entries.find? key = some e ↔ Stands h key e := by
  induction run generalizing e with
  | nil =>
    constructor
    · exact fun hfind => by cases hfind
    · rintro ⟨_, _, _, ⟨⟨before, hsplit⟩, _⟩, _⟩
      exact absurd hsplit (by simp)
  | waited _ _ ih => exact ih
  | @called t m h _ call ih =>
    exact stands_iff_of_moves (m.moves_perform t call key) (fun _ => ih) e

/-- **A value is found exactly if it is visible by the history.** -/
theorem History.get?_eq_some_iff (run : History t₀ .empty h t m) (now : Nat) :
    m.get? now key = some value ↔ IsVisible h key value now := by
  rw [TimedMap.get?_eq_some_iff]
  constructor
  · rintro ⟨e, hfind, hlives, rfl⟩
    obtain ⟨at_, ttl, since, hset, hdeadline⟩ := run.find?_eq_some_iff.mp hfind
    exact ⟨at_, ttl, since, hset, hdeadline ▸ Entry.isLive_iff.mp hlives⟩
  · rintro ⟨at_, ttl, since, hset, hlives⟩
    refine ⟨⟨value, lastDeadline key (.set at_ key value ttl :: since)⟩, ?_, ?_, rfl⟩
    · exact run.find?_eq_some_iff.mpr ⟨at_, ttl, since, hset, rfl⟩
    · exact Entry.isLive_iff.mpr hlives

/-! ## Keys that have lapsed

The entry of a key that has lapsed may stay in the map. It must not be found again, and giving it
another deadline must not bring it back. -/

theorem Entry.not_isLive_later {e : Entry} {now later : Nat} (hlapsed : e.isLive now = false)
    (hlater : now ≤ later) : e.isLive later = false :=
  Bool.eq_false_iff.mpr fun hlive => Bool.eq_false_iff.mp hlapsed (isLive_of_le hlater hlive)

namespace TimedMap

variable {now later : Nat} {call : Call}

/-- Nothing is found under a key exactly if it has no entry, or one that has lapsed. -/
theorem get?_eq_none_iff :
    m.get? now key = none ↔ ∀ e, m.entries.find? key = some e → e.isLive now = false := by
  rw [Option.eq_none_iff_forall_ne_some]
  constructor
  · intro hnone e hfind
    refine Bool.eq_false_iff.mpr fun hlive => hnone e.value ?_
    exact get?_eq_some_iff.mpr ⟨e, hfind, hlive, rfl⟩
  · intro hlapsed value hget
    obtain ⟨e, hfind, hlive, -⟩ := get?_eq_some_iff.mp hget
    exact Bool.false_ne_true ((hlapsed e hfind).symm.trans hlive)

/-- A call that does not write a key that has lapsed leaves its entry, or removes it. -/
theorem find?_of_perform (hnone : m.get? now key = none)
    (hcall : ∀ value ttl, call ≠ .set key value ttl) {e : Entry}
    (hfind : (m.perform now call).2.entries.find? key = some e) :
    m.entries.find? key = some e := by
  cases call with
  | ping | get | getMany | scan => exact hfind
  | set k value ttl =>
    have hkey : key ≠ k := fun heq => hcall value ttl (heq ▸ rfl)
    exact (find?_set ttl key).trans (if_neg hkey) ▸ hfind
  | delete k =>
    have herase := Keyed.find?_erase m.entries k key
    rw [show (m.perform now (.delete k)).2.entries = m.entries.erase k from rfl, herase] at hfind
    split at hfind
    · cases hfind
    · exact hfind
  | expire k ttl =>
    rw [show (m.perform now (.expire k ttl)).2 = (m.expire now k ttl).2 from rfl] at hfind
    unfold expire at hfind
    split at hfind
    · next old hlive =>
      -- a key that has lapsed is not the one that gets another deadline
      have hkey : key ≠ k := by
        rintro rfl
        obtain ⟨hold, hlives⟩ := live?_eq_some_iff.mp hlive
        exact Bool.false_ne_true ((get?_eq_none_iff.mp hnone old hold).symm.trans hlives)
      exact ((Keyed.find?_insert m.entries k _ key).trans (if_neg hkey)) ▸ hfind
    · exact hfind

/-- **A call that does not write a key does not bring it back.** -/
theorem get?_perform_of_none (hnone : m.get? now key = none)
    (hcall : ∀ value ttl, call ≠ .set key value ttl) (hlater : now ≤ later) :
    (m.perform now call).2.get? later key = none := by
  rw [get?_eq_none_iff]
  intro e hfind
  exact Entry.not_isLive_later
    (get?_eq_none_iff.mp hnone e (find?_of_perform hnone hcall hfind)) hlater

/-- There are as many keys as a scan of all of them lists. -/
theorem size_eq_length_scan (m : TimedMap) (now : Nat) : m.size now = (m.scan now "").length := by
  have hall : (m.entries.entries.filter fun e => begins "" e.1) = m.entries.entries :=
    List.filter_eq_self.mpr fun _ _ => rfl
  rw [scan_eq, hall, List.length_map]
  unfold size Keyed.values
  rw [List.filter_map, List.length_map]
  rfl

end TimedMap

theorem History.le (run : History t₀ m₀ h t m) : t₀ ≤ t := by
  induction run with
  | nil => exact Nat.le_refl t₀
  | waited _ later ih => exact ih.trans later
  | called _ _ ih => exact ih

/-- **A key that has lapsed is not found again before it is written.** -/
theorem History.get?_eq_none (run : History t₀ m₀ h t m) (hnone : m₀.get? t₀ key = none)
    (hnever : ∀ x ∈ h, ∀ now value ttl, x ≠ .set now key value ttl) {later : Nat}
    (hlater : t ≤ later) : m.get? later key = none := by
  induction run generalizing later with
  | nil =>
    rw [TimedMap.get?_eq_none_iff] at hnone ⊢
    exact fun e hfind => Entry.not_isLive_later (hnone e hfind) hlater
  | waited _ hwait ih => exact ih hnever (hwait.trans hlater)
  | @called t m h _ call ih =>
    obtain ⟨hbefore, hlast⟩ := List.forall_mem_append.mp hnever
    refine TimedMap.get?_perform_of_none (ih hbefore (Nat.le_refl t)) ?_ hlater
    rintro value ttl rfl
    exact hlast _ (List.mem_singleton_self _) t value ttl rfl

/-! ## Keys that are left alone -/

/-- **An exchange leaves a key alone**: the key is neither written nor removed, and it is not given
another deadline. -/
def Exchange.Spares (key : String) (x : Exchange) : Prop :=
  x.replaces key = false ∧ x.deadline? key = none

theorem Exchange.Moves.eq_of_spares {x : Exchange} {e e' : Option Entry} (h : x.Moves key e e')
    (hspares : x.Spares key) : e' = e := by
  cases h with
  | kept => rfl
  | written | removed => exact absurd hspares.1 (by simp [Exchange.replaces])
  | renewed => exact absurd hspares.2 (by simp [Exchange.deadline?])

/-- **A key that is left alone keeps its entry.** -/
theorem History.find?_of_spares (run : History t₀ m₀ h t m) (hspares : ∀ x ∈ h, x.Spares key) :
    m.entries.find? key = m₀.entries.find? key := by
  induction run with
  | nil => rfl
  | waited _ _ ih => exact ih hspares
  | @called t m h _ call ih =>
    obtain ⟨hbefore, hlast⟩ := List.forall_mem_append.mp hspares
    rw [(m.moves_perform t call key).eq_of_spares (hlast _ (List.mem_singleton_self _))]
    exact ih hbefore

/-- **A key that is left alone is there until its entry lapses.** -/
theorem History.get?_of_spares (run : History t₀ m₀ h t m) (hspares : ∀ x ∈ h, x.Spares key)
    {e : Entry} (hfind : m₀.entries.find? key = some e) (now : Nat) :
    m.get? now key = if e.isLive now then some e.value else none := by
  unfold TimedMap.get? TimedMap.live?
  rw [run.find?_of_spares hspares, hfind, Option.filter_some]
  split <;> rfl

/-! ## What a map shows -/

/-- **What a map shows at a time is what its history makes visible.** -/
structure Shows (h : List Exchange) (m : TimedMap) (now : Nat) : Prop where
  /-- A key has the value that it is visible with. -/
  get : ∀ key value, (m.perform now (.get key)).1 = some value ↔ IsVisible h key value now
  /-- Several keys are answered as each of them would be, in their order. -/
  getMany : ∀ (keys : List String) (i : Nat), (m.perform now (.getMany keys)).1[i]? =
    keys[i]?.map fun key => (m.perform now (.get key)).1
  /-- The visible keys that begin with a text are listed, and nothing else. -/
  mem_scan : ∀ start pageSize key, key ∈ (m.perform now (.scan start pageSize)).1 ↔
    start.toList <+: key.toList ∧ ∃ value, IsVisible h key value now
  /-- They are listed in ascending order, each of them once. -/
  scan_ascends : ∀ start pageSize, (m.perform now (.scan start pageSize)).1.Pairwise (· < ·)
  /-- The visible keys are counted. -/
  size : ∃ keys : Finset String, (∀ key, key ∈ keys ↔ ∃ value, IsVisible h key value now) ∧
    m.size now = keys.card
  /-- Removing a key says whether it was visible. -/
  delete : ∀ key, (m.perform now (.delete key)).1 = true ↔ ∃ value, IsVisible h key value now
  /-- Giving a key a deadline says whether it was visible. -/
  expire : ∀ key ttl, (m.perform now (.expire key ttl)).1 = true ↔
    ∃ value, IsVisible h key value now
  /-- A key that is not visible becomes visible only by being written. -/
  lapsed : ∀ more later m' key value, History now m more later m' →
    (¬ ∃ value, IsVisible h key value now) → IsVisible (h ++ more) key value later →
      ∃ x ∈ more, ∃ at_ value ttl, x = .set at_ key value ttl

theorem History.isSome_live?_iff (run : History t₀ .empty h t m) (now : Nat) (key : String) :
    (m.live? now key).isSome = true ↔ ∃ value, IsVisible h key value now := by
  simp only [← run.get?_eq_some_iff, TimedMap.get?, Option.map_eq_some_iff,
    Option.isSome_iff_exists]
  constructor
  · rintro ⟨e, hlive⟩
    exact ⟨e.value, e, hlive, rfl⟩
  · rintro ⟨_, e, hlive, -⟩
    exact ⟨e, hlive⟩

/-- A key is listed exactly if it begins with the text and is visible by the history. -/
theorem History.mem_scan_iff (run : History t₀ .empty h t m) (now : Nat) (start key : String) :
    key ∈ m.scan now start ↔
      start.toList <+: key.toList ∧ ∃ value, IsVisible h key value now := by
  rw [TimedMap.mem_scan_iff, ← Option.isSome_iff_exists, run.isSome_live?_iff]
  exact and_congr_left' List.isPrefixOf_iff_prefix

/-- **Whatever the cache went through, it shows what its history makes visible.**

The clock only has to go forward. It need not move between calls, and it may jump. -/
theorem answers_of_history {now : Nat} (run : History 0 .empty h now m) : Shows h m now where
  get key value := run.get?_eq_some_iff now
  getMany keys i := List.getElem?_map
  mem_scan start _ key := run.mem_scan_iff now start key
  scan_ascends start _ := m.pairwise_scan now start
  size := by
    refine ⟨(m.scan now "").toFinset, fun key => ?_, ?_⟩
    · rw [List.mem_toFinset, run.mem_scan_iff]
      exact and_iff_right List.nil_prefix
    · have hnodup : (m.scan now "").Nodup := (m.pairwise_scan now "").imp String.ne_of_lt
      rw [m.size_eq_length_scan, List.toFinset_card_of_nodup hnodup]
  delete key := run.isSome_live?_iff now key
  expire key ttl := by
    have hanswer : (m.expire now key ttl).1 = (m.live? now key).isSome := by
      unfold TimedMap.expire
      cases m.live? now key <;> rfl
    exact Iff.trans (by rw [show (m.perform now (.expire key ttl)).1 = _ from hanswer])
      (run.isSome_live?_iff now key)
  lapsed more later m' key value run' hnot hvisible := by
    by_contra hnever
    push Not at hnever
    have hnone : m.get? now key = none := by
      refine Option.eq_none_iff_forall_ne_some.mpr fun value hget => hnot ⟨value, ?_⟩
      exact (run.get?_eq_some_iff now).mp hget
    have hget := ((run.append run').get?_eq_some_iff later).mpr hvisible
    rw [run'.get?_eq_none hnone hnever (Nat.le_refl later)] at hget
    cases hget

/-- A key that is written for a while and then gets another deadline is visible beyond its first. -/
theorem answers_of_history_renewed : ∃ h m, History 0 .empty h 12 m ∧ Shows h m 12 ∧
    (∃ value, IsVisible h "a" value 12) ∧ lastDeadline "a" h = some 15 := by
  have written : History 0 .empty _ 0 _ := .called .nil (.set "a" .empty (some ⟨10, by decide⟩))
  have waited : History 0 .empty _ 5 _ := written.waited (by decide)
  have run : History 0 .empty _ 12 _ :=
    (waited.called (.expire "a" ⟨10, by decide⟩)).waited (by decide)
  have hshows := answers_of_history run
  exact ⟨_, _, run, hshows, ⟨.empty, (hshows.get "a" .empty).mp rfl⟩, rfl⟩

end Gathering.Cache
