import Gathering.Proofs.Cache.History
import Gathering.Proofs.Store.Stores
import Gathering.Proofs.Time.Flow

/-!
# Copies that lapse when the event ends

Whoever records something about an event puts a copy of it into the cache, and the
copy is to live until the event ends. The cache knows nothing of events, and it
has a clock of its own. What is left until the end is reckoned once, from the wall
clock, and becomes a deadline on the clock of the cache. So the two clocks have to
run together for the copy to lapse in time, and while they do it lapses to the
nanosecond: it can be read exactly while the wall clock shows an instant before
the end (`Stores.lapsesAt_set`).

A recording that makes a copy (`Copy`) goes one of three ways (`Copy.Outcome`):
nothing is left until the end, or something is cached that the copy yields to, or
the copy is written. Which of them it is and what comes of it is told by what the
clocks show (`Copy.Outcome.isMade`).

The end of an event may lie in a leap second, and a wall clock shows no leap
seconds. What is left until such an end is reckoned as if it were in the second
after, though it comes before that second, and nothing is said about it here.
-/

namespace Gathering

open Cache (History Entry)

namespace Stores

/-! ## Two clocks -/

/-- Whether an answer tells what time it is, if that was asked for. -/
def TellsTime (now : Instant) : (e : Effect) → e.Answer → Prop
  | .request .now, answer => answer = now
  | _, _ => True

/-- **A turn takes place at a time**, which both clocks show: the clock of the cache counts
nanoseconds, and the wall clock was set to an instant when it began to. -/
structure IsAt (wall : Instant) (now : Nat) (turn : Turn Stores) : Prop where
  /-- The clock of the cache. -/
  clock : turn.before.clock = now
  /-- The wall clock. -/
  time : TellsTime (wall.elapsed now) turn.effect turn.answer

/-- **A key holds a value until an instant**, as long as nobody writes or removes it or gives it
another deadline, whatever else becomes of the cache. -/
def LapsesAt (wall : Instant) (key : String) (value : ByteArray) (end_ : Instant) (st : Stores) :
    Prop :=
  ∀ h now m, History st.clock st.cache h now m → (∀ x ∈ h, x.Spares key) →
    m.get? now key = if wall.elapsed now < end_ then some value else none

/-- **What is written for what is left until an instant lapses at that instant.**

What is left is a number of nanoseconds, and the cache adds it to what its clock shows. The wall
clock comes to the instant when the clock of the cache has run that far, and until then nobody
touches the entry. -/
theorem lapsesAt_set {wall end_ : Instant} {ttl : Span} (st : Stores) (key : String)
    (value : ByteArray) (hwall : wall.isLeap = false) (hend : end_.isLeap = false)
    (httl : end_.remaining (wall.elapsed st.clock) = some ttl) :
    LapsesAt wall key value end_
      { st with cache := st.cache.set st.clock key value (some ttl) } := by
  intro h now m run hspares
  have hfind : (st.cache.set st.clock key value (some ttl)).entries.find? key =
      some ⟨value, some (st.clock + ttl.nanos)⟩ :=
    (Cache.TimedMap.find?_set (some ttl) key).trans (if_pos rfl)
  rw [run.get?_of_spares hspares hfind]
  refine ite_congr (propext ?_) (fun _ => rfl) fun _ => rfl
  rw [Entry.isLive_iff, ← Instant.lt_add_remaining_iff hwall hend httl]
  exact ⟨fun hlive => hlive _ rfl, by rintro hlt _ ⟨⟩; exact hlt⟩

end Stores

/-- The cache is left as it is, with all its entries. -/
def Turn.LeavesCache (turn : Turn Stores) : Prop := turn.after.cache = turn.before.cache

/-- **A look at the cache**, and its answer. -/
abbrev Turn.look (st : Stores) (key : String) : Turn Stores :=
  ⟨st, .request (.cache (.get key)), .ok (st.cache.get? st.clock key), st⟩

/-- A write to the cache. -/
abbrev Turn.write (st : Stores) (key : String) (value : ByteArray) (ttl : Span) : Turn Stores :=
  ⟨st, .request (.cache (.set key value (some ttl))), .ok (),
    { st with cache := st.cache.set st.clock key value (some ttl) }⟩

/-! ## Copies -/

/-- **A copy for the cache.** -/
structure Copy where
  /-- The key under which it is found. -/
  key : String
  /-- What is written. -/
  value : ByteArray
  /-- The end of the event, if there is one that is known. -/
  ends : Option Instant
  /-- How long it lives otherwise. -/
  fallback : Span
  /-- Whether it yields to what is cached. -/
  yields : Option ByteArray → Bool

/-- **Until when a copy lives** that is made at some time. -/
def Copy.ending (x : Copy) (now : Instant) : Instant := x.ends.getD (now.add x.fallback)

namespace Copy

variable {x : Copy} {wall : Instant} {now : Nat} {turns : List (Turn Stores)} {st' : Stores}

theorem isLeap_ending {now : Instant} (hends : ∀ t ∈ x.ends, t.isLeap = false)
    (hnow : now.isLeap = false) : (x.ending now).isLeap = false := by
  unfold ending
  cases hsome : x.ends with
  | none => exact Instant.isLeap_add hnow x.fallback
  | some t => exact hends t hsome

/-- **The copy has met with something that it yields to** when the cache was looked at. -/
def IsOutdone (x : Copy) (turns : List (Turn Stores)) : Prop :=
  ∃ st : Stores, .look st x.key ∈ turns ∧ x.yields (st.cache.get? st.clock x.key) = true

/-- **The lifetime of a copy is that of the event.** -/
structure IsTimely (x : Copy) (wall : Instant) (now : Nat) (turns : List (Turn Stores))
    (st' : Stores) : Prop where
  /-- Once the end has come, nothing is written. -/
  late : x.ending (wall.elapsed now) ≤ wall.elapsed now → ∀ turn ∈ turns, turn.LeavesCache
  /-- Before that the copy is written, unless it yields, and it can be read until the end. -/
  lapses : wall.elapsed now < x.ending (wall.elapsed now) → ¬ x.IsOutdone turns →
    st'.LapsesAt wall x.key x.value (x.ending (wall.elapsed now))

/-- **How a recording makes its copy** at a time. -/
structure IsMade (x : Copy) (wall : Instant) (now : Nat) (turns : List (Turn Stores))
    (st' : Stores) : Prop where
  /-- If the copy yields, what is cached stays with its value and its deadline. -/
  outdone : x.IsOutdone turns → ∀ turn ∈ turns, turn.LeavesCache
  /-- No other key is touched. -/
  alone : ∀ turn ∈ turns, ∀ key ≠ x.key,
    turn.after.cache.entries.find? key = turn.before.cache.entries.find? key
  /-- It lives as long as the event, if that does not end in a leap second. -/
  timely : (∀ t ∈ x.ends, t.isLeap = false) → x.IsTimely wall now turns st'

/-- **What becomes of a copy** that is to live until an instant. -/
inductive Outcome (x : Copy) (end_ now : Instant) (turns : List (Turn Stores)) (st' : Stores) : Prop
  /-- Nothing is left until then. -/
  | late (hlate : end_.remaining now = none) (left : ∀ turn ∈ turns, turn.LeavesCache)
  /-- It yields to what is cached. -/
  | outdone {ttl : Span} (httl : end_.remaining now = some ttl) (seen : x.IsOutdone turns)
      (left : ∀ turn ∈ turns, turn.LeavesCache)
  /-- It is written. -/
  | written {ttl : Span} {first : List (Turn Stores)} {st : Stores}
      (httl : end_.remaining now = some ttl) (unseen : ¬ x.IsOutdone first)
      (left : ∀ turn ∈ first, turn.LeavesCache)
      (split : turns = first ++ [.write st x.key x.value ttl])
      (wrote : st' = (Turn.write st x.key x.value ttl).after)

/-- Who looks at the cache sees what is there. -/
theorem isOutdone_look_iff {st : Stores} :
    x.IsOutdone [.look st x.key] ↔ x.yields (st.cache.get? st.clock x.key) = true := by
  constructor
  · rintro ⟨st, hmem, hyields⟩
    cases List.mem_singleton.mp hmem
    exact hyields
  · exact fun hyields => ⟨st, List.mem_singleton_self _, hyields⟩

/-- Who does anything else sees nothing of it. -/
theorem isOutdone_cons_iff {turn : Turn Stores}
    (hlook : turn.effect ≠ .request (.cache (.get x.key))) :
    x.IsOutdone (turn :: turns) ↔ x.IsOutdone turns := by
  constructor
  · rintro ⟨st, hmem, hyields⟩
    rcases List.mem_cons.mp hmem with rfl | hmem
    · exact absurd rfl hlook
    · exact ⟨st, hmem, hyields⟩
  · rintro ⟨st, hmem, hyields⟩
    exact ⟨st, List.mem_cons_of_mem turn hmem, hyields⟩

theorem isOutdone_append_write_iff {st : Stores} {ttl : Span} :
    x.IsOutdone (turns ++ [.write st x.key x.value ttl]) ↔ x.IsOutdone turns := by
  simp [IsOutdone]

/-- What comes before does not matter, if the cache is not called. -/
theorem Outcome.cons {end_ now : Instant} {turn : Turn Stores} (h : x.Outcome end_ now turns st')
    (hleft : turn.LeavesCache) (hlook : turn.effect ≠ .request (.cache (.get x.key))) :
    x.Outcome end_ now (turn :: turns) st' := by
  cases h with
  | late hlate left => exact .late hlate (List.forall_mem_cons.mpr ⟨hleft, left⟩)
  | outdone httl seen left =>
    exact .outdone httl ((isOutdone_cons_iff hlook).mpr seen)
      (List.forall_mem_cons.mpr ⟨hleft, left⟩)
  | written httl unseen left split wrote =>
    exact .written httl ((isOutdone_cons_iff hlook).not.mpr unseen)
      (List.forall_mem_cons.mpr ⟨hleft, left⟩) (congrArg (turn :: ·) split) wrote

/-- **A copy is made in time** if what is left until its end is reckoned at that time.

Nothing is left exactly if the end has come, outside of leap seconds; so of the three ways that a
recording can go the first is the one for a copy that is too late, and the other two are for one
that is not. -/
theorem Outcome.isMade (hwall : wall.isLeap = false)
    (hat : ∀ turn ∈ turns, Stores.IsAt wall now turn)
    (h : x.Outcome (x.ending (wall.elapsed now)) (wall.elapsed now) turns st') :
    x.IsMade wall now turns st' := by
  have hnow := Instant.isLeap_elapsed hwall now
  cases h with
  | late hlate left =>
    refine ⟨fun _ => left, fun turn hturn key _ => by rw [left turn hturn], fun hends => ?_⟩
    have hlate := (Instant.remaining_eq_none_iff hnow (isLeap_ending hends hnow)).mp hlate
    exact ⟨fun _ => left, fun hahead => absurd hahead (Instant.not_lt.mpr hlate)⟩
  | outdone _ seen left =>
    refine ⟨fun _ => left, fun turn hturn key _ => by rw [left turn hturn], fun _ => ?_⟩
    exact ⟨fun _ => left, fun _ hunseen => absurd seen hunseen⟩
  | @written ttl first st httl unseen left split wrote =>
    subst split wrote
    obtain ⟨rfl, -⟩ := hat _ (List.mem_append_right first (List.mem_singleton_self _))
    refine ⟨fun hseen => ?_, ?_, fun hends => ⟨fun hlate => ?_, fun _ _ => ?_⟩⟩
    · exact absurd (isOutdone_append_write_iff.mp hseen) unseen
    · refine List.forall_mem_append.mpr ⟨fun turn hturn key _ => by rw [left turn hturn], ?_⟩
      refine List.forall_mem_singleton.mpr fun key hne => ?_
      exact (Cache.TimedMap.find?_set (some ttl) key).trans (if_neg hne)
    · rw [(Instant.remaining_eq_none_iff hnow (isLeap_ending hends hnow)).mpr hlate] at httl
      cases httl
    · exact Stores.lapsesAt_set st x.key x.value hwall (isLeap_ending hends hnow) httl

end Copy

end Gathering
