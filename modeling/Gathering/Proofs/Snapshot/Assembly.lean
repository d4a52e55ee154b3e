import Gathering.Proofs.Program.Trace
import Gathering.Proofs.Snapshot.Contents
import Gathering.Proofs.Store.Quiet
import Mathlib.Data.List.Sort

/-!
# How a snapshot is put together

A snapshot has two parts, the locations and the replies, and each of them is taken
from the cache in two calls: one for the keys, and one for the values. Any of the
four calls may fail, any value may be unreadable, and any entry may lapse between
the two calls.

The parts have nothing to do with each other. A part is empty if one of its own
calls has failed, and otherwise it holds what can be read of what is there under its
text, in the order of the keys, and the number of what cannot be read
(`Snapshot.comesOf_of_runs`). The snapshot holds the parts and counts the replies
(`Snapshot.assembled_of_runs`), and no failure of the cache prevents it
(`Snapshot.take_assembled`).
-/

namespace Gathering

open Cache (TimedMap)
open Cache.TimedMap (begins)

/-! ## Counting replies

A tally is made by going through the replies one by one, and what it says of them is kept with
each. -/

namespace Tally

/-- **A tally counts replies.** Those who have arrived are among those who will come, and everybody
is counted once. -/
structure Counts (replies : List Rsvp) (t : Tally) : Prop where
  /-- Those who will come or have arrived. -/
  confirmed : t.confirmed = replies.countP fun r => r = .confirmed ∨ r = .checkedIn
  /-- Those who have not replied. -/
  pending : t.pending = replies.countP (· = .pending)
  /-- Those who will not come. -/
  denied : t.denied = replies.countP (· = .denied)
  /-- They are all. -/
  sum : t.total = t.confirmed + t.pending + t.denied
  /-- The total. -/
  total : t.total = replies.length

theorem Counts.count {replies : List Rsvp} {t : Tally} (h : Counts replies t) (r : Rsvp) :
    Counts (replies ++ [r]) (t.count r) := by
  obtain ⟨hconfirmed, hpending, hdenied, hsum, htotal⟩ := h
  cases r <;>
    exact ⟨by simp [Tally.count, hconfirmed], by simp [Tally.count, hpending],
      by simp [Tally.count, hdenied], by simp only [Tally.count]; omega,
      by simp [Tally.count, htotal]⟩

/-- **The tally of a list of replies counts them.** -/
theorem counts_ofReplies (replies : List Rsvp) : Counts replies (ofReplies replies) := by
  induction replies using List.reverseRecOn with
  | nil => exact ⟨rfl, rfl, rfl, rfl, rfl⟩
  | append_singleton replies r ih =>
    have happend : ofReplies (replies ++ [r]) = (ofReplies replies).count r := List.foldl_append
    rw [happend]
    exact ih.count r

end Tally

namespace Snapshot

variable {σ α : Type} {W : Surroundings σ} {c : EventCacheConfig} {read : ByteArray → Option α}
  {start : String}

/-! ## Taking a part

The program of a part, inverted: four ways in which its calls can go. Nothing is assumed of what a
cache answers, so that a list of values may be shorter than the list of keys, or hold anything. -/

/-- **How a part is taken** from a cache, whatever it answers: the keys that begin with a text are
listed, and then the value of each of them is read. -/
inductive Taken (c : EventCacheConfig) (read : ByteArray → Option α) (start : String) :
    List Answered → Part α → Prop
  /-- The keys cannot be listed. -/
  | unlisted (e : Error) :
      Taken c read start [⟨.request (.cache (.scan start c.scanCount)), .error e⟩] {}
  /-- There are no keys. -/
  | nothing : Taken c read start [⟨.request (.cache (.scan start c.scanCount)), .ok []⟩] {}
  /-- The values cannot be read. -/
  | unread {keys : List String} (h : keys ≠ []) (e : Error) :
      Taken c read start [⟨.request (.cache (.scan start c.scanCount)), .ok keys⟩,
        ⟨.request (.cache (.getMany keys)), .error e⟩] {}
  /-- The values are read, each for its key. -/
  | read {keys : List String} (h : keys ≠ []) (values : List (Option ByteArray)) :
      Taken c read start [⟨.request (.cache (.scan start c.scanCount)), .ok keys⟩,
        ⟨.request (.cache (.getMany keys)), .ok values⟩]
        (readAll read ((keys.zip values).map (·.2)))

/-- Every run of a part takes it. -/
theorem taken_of_runs {st st' : σ} {turns : List (Turn σ)} {r : Part α}
    (run : Work.Runs W st (part c read start) turns r st') :
    Taken c read start (turns.map (·.deed)) r := by
  obtain ⟨st₁, keys?, st₂, rest, rfl, -, -, run⟩ := Work.runs_call_iff.mp run
  match keys? with
  | .error e =>
    cases run
    exact .unlisted e
  | .ok [] =>
    cases run
    exact .nothing
  | .ok (key :: keys) =>
    obtain ⟨st₃, values?, st₄, rest, rfl, -, -, run⟩ := Work.runs_call_iff.mp run
    match values? with
    | .error e =>
      cases run
      exact .unread (List.cons_ne_nil key keys) e
    | .ok values =>
      cases run
      exact .read (List.cons_ne_nil key keys) values

theorem Taken.exists_scan {deeds : List Answered} {r : Part α} (h : Taken c read start deeds r) :
    ∃ answer, ⟨.request (.cache (.scan start c.scanCount)), answer⟩ ∈ deeds := by
  cases h <;> exact ⟨_, List.mem_cons_self⟩

theorem Taken.asks {deeds : List Answered} {r : Part α} (h : Taken c read start deeds r) :
    ∀ deed ∈ deeds, deed.effect = .request (.cache (.scan start c.scanCount)) ∨
      ∃ keys, deed.effect = .request (.cache (.getMany keys)) := by
  cases h with
  | unlisted | nothing => exact List.forall_mem_singleton.mpr (.inl rfl)
  | unread | read =>
    exact List.forall_mem_cons.mpr ⟨.inl rfl, List.forall_mem_singleton.mpr (.inr ⟨_, rfl⟩)⟩

/-! ## What is there under a text

Between the two calls time passes, and entries lapse; they do not come back. What was listed and
can still be read is therefore all that is there when the values are read. It makes no difference
that some of the keys had lapsed by then. -/

/-- **The entries that are there under a text**, each with its value, in the order of the keys. -/
structure Lists (m : TimedMap) (now : Nat) (start : String) (entries : List (String × ByteArray)) :
    Prop where
  /-- The keys ascend. -/
  ascending : Ascending entries
  /-- What is there under the text is listed, and nothing else. -/
  mem : ∀ key value, (key, value) ∈ entries ↔ begins start key = true ∧ m.get? now key = some value

theorem Lists.unique {m : TimedMap} {now : Nat} {entries entries' : List (String × ByteArray)}
    (h : Lists m now start entries) (h' : Lists m now start entries') : entries = entries' := by
  have hsame : ∀ entry, entry ∈ entries ↔ entry ∈ entries' := fun (key, value) =>
    (h.mem key value).trans (h'.mem key value).symm
  have : Std.Asymm fun a b : String × ByteArray => a.1 < b.1 :=
    ⟨fun _ _ hlt hlt' => String.lt_asymm hlt hlt'⟩
  exact h.ascending.eq_of_mem_iff h'.ascending fun entry => hsame entry

/-- **A part holds what is there under a text**: what can be read of it, in the order of the keys,
and the number of what cannot. -/
def Part.Holds (m : TimedMap) (now : Nat) (start : String) (read : ByteArray → Option α)
    (r : Part α) : Prop :=
  ∃ entries, Lists m now start entries ∧ r.items = entries.filterMap (fun e => read e.2) ∧
    r.skipped = entries.countP fun e => (read e.2).isNone

/-- What was listed and is still there is what is there. -/
theorem lists_scan (m : TimedMap) {now later : Nat} (hle : now ≤ later) (start : String) :
    Lists m later start
      ((m.scan now start).filterMap fun key => (m.get? later key).map (key, ·)) where
  ascending := by
    refine List.pairwise_filterMap.mpr ((m.pairwise_scan now start).imp ?_)
    intro key key' hlt entry hentry entry' hentry'
    obtain ⟨value, -, rfl⟩ := Option.map_eq_some_iff.mp hentry
    obtain ⟨value', -, rfl⟩ := Option.map_eq_some_iff.mp hentry'
    exact hlt
  mem key value := by
    constructor
    · intro hmem
      obtain ⟨key', hkey, hentry⟩ := List.mem_filterMap.mp hmem
      obtain ⟨value', hget, heq⟩ := Option.map_eq_some_iff.mp hentry
      cases heq
      exact ⟨(TimedMap.mem_scan_iff.mp hkey).1, hget⟩
    · rintro ⟨hbegins, hget⟩
      have hkey := TimedMap.mem_scan_of_get? (TimedMap.get?_of_le hle hget) hbegins
      exact List.mem_filterMap.mpr ⟨key, hkey, by rw [hget]; rfl⟩

/-- What is read, and what cannot be, of the values that are there. -/
theorem readAll_eq (read : ByteArray → Option α) (values : List (Option ByteArray)) :
    readAll read values = ⟨(values.filterMap id).filterMap read,
      (values.filterMap id).countP fun value => (read value).isNone⟩ := by
  unfold readAll
  simp only [List.filterMap_map, List.countP_map]
  rfl

/-- The values of listed keys are what is there under them. -/
theorem values_listed (m : TimedMap) (later : Nat) (keys : List String) :
    (m.getMany later keys).filterMap id =
      (keys.filterMap fun key => (m.get? later key).map (key, ·)).map (·.2) := by
  unfold TimedMap.getMany
  rw [List.filterMap_map, List.map_filterMap]
  refine congrArg (List.filterMap · keys) (funext fun key => ?_)
  show m.get? later key = ((m.get? later key).map (key, ·)).map (·.2)
  cases m.get? later key <;> rfl

/-- **Reading the listed keys gives what is there**, though time has passed in between.

The values that are answered are those of the listed keys that are still there (`values_listed`),
and these are all the keys under the text (`lists_scan`). Reading keeps the order. -/
theorem holds_readAll (m : TimedMap) {now later : Nat} (hle : now ≤ later) (start : String)
    (read : ByteArray → Option α) :
    (readAll read (m.getMany later (m.scan now start))).Holds m later start read := by
  refine ⟨_, lists_scan m hle start, ?_, ?_⟩
  · rw [readAll_eq, values_listed, List.filterMap_map]
    rfl
  · rw [readAll_eq, values_listed, List.countP_map]
    rfl

/-! ## Parts of a cache whose calls may fail

Nobody writes to the cache meanwhile; only time passes. Which calls fail is open, and the part is
empty if one of its own does. -/

/-- **What a part comes to** from one state to another. -/
structure Part.ComesOf (c : EventCacheConfig) (read : ByteArray → Option α) (start : String)
    (st st' : Stores) (turns : List (Turn Stores)) (r : Part α) : Prop where
  /-- It was taken by these calls. -/
  taken : Taken c read start (turns.map (·.deed)) r
  /-- If one of them has failed it is empty. Otherwise it holds what is there under its text, at
  some time between the two states. -/
  holds : (∃ turn ∈ turns, Stores.Refuses turn.effect turn.answer) ∧ r = {} ∨
    (∀ turn ∈ turns, ¬ Stores.Refuses turn.effect turn.answer) ∧
      ∃ now, st.clock ≤ now ∧ now ≤ st'.clock ∧ r.Holds st.cache now start read

theorem Part.ComesOf.mono {st st₁ st₂ st' : Stores} {turns : List (Turn Stores)} {r : Part α}
    (h : r.ComesOf c read start st₁ st₂ turns) (hbefore : st.Passes st₁)
    (hafter : st₂.Passes st') : r.ComesOf c read start st st' turns := by
  refine ⟨h.taken, h.holds.imp_right fun ⟨hnone, now, hle, hle', hholds⟩ => ?_⟩
  exact ⟨hnone, now, Nat.le_trans hbefore.1 hle, Nat.le_trans hle' hafter.1, hbefore.2 ▸ hholds⟩

/-- A part whose keys cannot be listed is empty. -/
theorem Part.ComesOf.eq_empty {st st' : Stores} {turns : List (Turn Stores)} {r : Part α}
    (h : r.ComesOf c read start st st' turns)
    (hrefused : ∀ turn ∈ turns, turn.effect = .request (.cache (.scan start c.scanCount)) →
      Stores.Refuses turn.effect turn.answer) : r = {} := by
  rcases h.holds with ⟨-, hempty⟩ | ⟨hnone, -⟩
  · exact hempty
  · obtain ⟨answer, hmem⟩ := h.taken.exists_scan
    obtain ⟨turn, hturn, hdeed⟩ := List.mem_map.mp hmem
    exact absurd (hrefused turn hturn (congrArg (·.1) hdeed)) (hnone turn hturn)

/-- **Any call of the cache may fail**, and time passes. -/
abbrev unreliable : Surroundings Stores := Stores.shared Request.IsCacheCall Stores.Passes

theorem not_refuses {call : Cache.Call} (answer : call.Answer) :
    ¬ Stores.Refuses (.request (.cache call)) (.ok answer) := fun ⟨_, h⟩ => by cases h

/-- **What every run of a part comes to.**

By the ways in which it can be taken: a call that has failed gives an empty part, and two answers
give what is there at the time of the second one. -/
theorem comesOf_of_runs {st st' : Stores} {turns : List (Turn Stores)} {r : Part α}
    (run : Work.Runs unreliable st (part c read start) turns r st') :
    st.Passes st' ∧ r.ComesOf c read start st st' turns := by
  have htaken := taken_of_runs run
  obtain ⟨st₁, keys?, st₂, rest, rfl, hpasses, hanswers, run₁⟩ := Work.runs_call_iff.mp run
  obtain ⟨rfl, -⟩ := hanswers.of_read rfl
  match keys? with
  | .error e =>
    obtain ⟨rfl, rfl, rfl⟩ := Work.runs_pure_iff.mp run₁
    exact ⟨hpasses, htaken, .inl ⟨⟨_, List.mem_singleton_self _, e, rfl⟩, rfl⟩⟩
  -- no key was listed, and so nothing more is asked for
  | .ok [] =>
    obtain ⟨rfl, rfl, rfl⟩ := Work.runs_pure_iff.mp run₁
    have hscan : st'.cache.scan st'.clock start = [] :=
      (hanswers.eq_perform.1 : [] = st'.cache.scan st'.clock start).symm
    have hholds := holds_readAll st'.cache (Nat.le_refl st'.clock) start read
    rw [hscan] at hholds
    refine ⟨hpasses, htaken, .inr ⟨List.forall_mem_singleton.mpr (not_refuses _), ?_⟩⟩
    exact ⟨st'.clock, hpasses.1, Nat.le_refl _, hpasses.2 ▸ hholds⟩
  | .ok (key :: keys) =>
    obtain ⟨st₃, values?, st₄, rest, rfl, hpasses', hanswers', run₂⟩ := Work.runs_call_iff.mp run₁
    obtain ⟨rfl, -⟩ := hanswers'.of_read rfl
    have hboth : st.Passes st₄ := Stores.Passes.trans hpasses hpasses'
    match values? with
    | .error e =>
      obtain ⟨rfl, rfl, rfl⟩ := Work.runs_pure_iff.mp run₂
      exact ⟨hboth, htaken,
        .inl ⟨⟨_, List.mem_cons_of_mem _ (List.mem_singleton_self _), e, rfl⟩, rfl⟩⟩
    | .ok values =>
      obtain ⟨rfl, rfl, rfl⟩ := Work.runs_pure_iff.mp run₂
      have hscan : key :: keys = st₂.cache.scan st₂.clock start := hanswers.eq_perform.1
      -- the values are those of the second look, for the keys of the first one
      have hget : values = st'.cache.getMany st'.clock (key :: keys) := hanswers'.eq_perform.1
      have hholds := holds_readAll st'.cache hpasses'.1 start read
      refine ⟨hboth, htaken, .inr ⟨?_, st'.clock, hboth.1, Nat.le_refl _, ?_⟩⟩
      · exact List.forall_mem_cons.mpr ⟨not_refuses _,
          List.forall_mem_singleton.mpr (not_refuses _)⟩
      · rw [hget, TimedMap.map_snd_zip_getMany, hscan, ← hpasses'.2, ← hboth.2]
        exact hholds

/-! ## Putting the parts together

The locations are taken first, then the replies, and last the time. Each part is a run of its own
within the run of the snapshot, so what was shown of parts holds of both. -/

/-- **A snapshot is put together** from two parts. -/
structure Assembled (orgId eventId : String) (places : Part Sample) (replies : Part Confirmation)
    (snap : Snapshot) : Prop where
  /-- The organisation. -/
  orgId : snap.orgId = orgId
  /-- The event. -/
  eventId : snap.eventId = eventId
  /-- The locations. -/
  locations : snap.locations = places.items
  /-- The replies. -/
  confirmations : snap.confirmations = replies.items
  /-- What could not be read in either part. -/
  skippedEntries : snap.skippedEntries = places.skipped + replies.skipped
  /-- The replies are counted. -/
  counts : Tally.Counts (snap.confirmations.map (·.status)) snap.totals

/-- **Every run of a snapshot puts it together** from the parts that it takes, the locations first;
then it asks what time it is. -/
theorem assembled_of_runs {st st' : σ} {orgId eventId : String} {turns : List (Turn σ)}
    {snap : Snapshot} (run : Work.Runs W st (take c orgId eventId) turns snap st') :
    ∃ first second last locations confirmations st₁ st₂,
      turns = first ++ second ++ [last] ∧
      Work.Runs W st (part c Sample.ofBytes? (Cache.Key.locationsOf eventId)) first locations st₁ ∧
      Work.Runs W st₁ (part c Confirmation.ofBytes? (Cache.Key.confirmationsOf orgId eventId))
        second confirmations st₂ ∧
      W.meanwhile st₂ last.before ∧ W.answers last.before last.effect last.answer st' ∧
      last.deed = ⟨.request .now, snap.fetchedAt⟩ ∧
      Assembled orgId eventId locations confirmations snap := by
  obtain ⟨first, rest, locations, st₁, rfl, run₁, run⟩ := Work.runs_bind_iff.mp run
  obtain ⟨second, last, confirmations, st₂, rfl, run₂, run⟩ := Work.runs_bind_iff.mp run
  obtain ⟨st₃, now, st₄, rest, rfl, others, answered, run⟩ := Work.runs_call_iff.mp run
  obtain ⟨rfl, rfl, rfl⟩ := Work.runs_pure_iff.mp run
  exact ⟨first, second, ⟨st₃, _, now, st'⟩, locations, confirmations, st₁, st₂,
    (List.append_assoc ..).symm, run₁, run₂, others, answered, rfl,
    ⟨rfl, rfl, rfl, rfl, rfl, Tally.counts_ofReplies _⟩⟩

/-- The calls of the cache among requests. -/
def cacheCalls (refused : Cache.Call → Prop) (r : Request) : Prop :=
  ∃ call, r = .cache call ∧ refused call

/-- **A snapshot is taken, whichever calls of the cache fail.**

For every choice of calls there is a run in which just these fail. -/
theorem exists_runs_take (c : EventCacheConfig) (orgId eventId : String) (st : Stores)
    (refused : Cache.Call → Prop) :
    ∃ turns snap st', Work.Runs unreliable st (take c orgId eventId) turns snap st' ∧
      ∀ turn ∈ turns, ∀ call, turn.effect = .request (.cache call) →
        (Stores.Refuses turn.effect turn.answer ↔ refused call) := by
  obtain ⟨turns, snap, st', run, hfails⟩ := Stores.exists_runs_failing Stores.Passes.refl
    (cacheCalls refused) (take c orgId eventId) st
  refine ⟨turns, snap, st', run.mono (fun _ _ => id) (fun _ _ _ _ => .mono ?_), ?_⟩
  · rintro _ ⟨call, rfl, -⟩
    exact ⟨call, rfl⟩
  · rintro ⟨before, _, answer, after⟩ hturn call rfl
    refine ⟨fun ⟨err, herr⟩ => ?_, fun h => hfails _ hturn (.cache call) rfl rfl ⟨call, rfl, h⟩⟩
    by_contra hheld
    obtain ⟨hok, -⟩ := (run.answered _ hturn).of_cache fun ⟨_, heq, h⟩ => by
      cases heq
      exact hheld h
    rw [show answer = .error err from herr] at hok
    cases hok

/-- **What a snapshot is made of, whatever the cache holds and whichever of its calls fail.**

Over a cache of any kind, a snapshot is put together from two parts. A part is empty if one of its
calls is answered by an error, and otherwise it is what can be read of the values that were
answered, each for its key.

Over a cache whose entries lapse, any calls of which may fail, this is what is there under the
text of the part: a part none of whose calls has failed holds what can be read of it, in the order
of the keys, and the number of what cannot. What becomes of one part does not depend on the other.
And a snapshot is always taken: whichever calls fail, some run comes to its end.

The run is cut into those of its parts (`assembled_of_runs`). What each of them does is
`taken_of_runs` for any cache, and `comesOf_of_runs` for one whose entries lapse. -/
theorem take_assembled (c : EventCacheConfig) (orgId eventId : String) :
    (∀ {σ : Type} (W : Surroundings σ) (st st' : σ) (turns : List (Turn σ)) (snap : Snapshot),
      Work.Runs W st (take c orgId eventId) turns snap st' →
      ∃ (first second : List (Turn σ)) (last : Turn σ) (places : Part Sample)
        (replies : Part Confirmation), turns = first ++ second ++ [last] ∧
        Taken c Sample.ofBytes? (Cache.Key.locationsOf eventId) (first.map (·.deed)) places ∧
        Taken c Confirmation.ofBytes? (Cache.Key.confirmationsOf orgId eventId)
          (second.map (·.deed)) replies ∧
        last.deed = ⟨.request .now, snap.fetchedAt⟩ ∧
        Assembled orgId eventId places replies snap) ∧
    (∀ (st st' : Stores) (turns : List (Turn Stores)) (snap : Snapshot),
      Work.Runs unreliable st (take c orgId eventId) turns snap st' →
      ∃ (first second : List (Turn Stores)) (last : Turn Stores) (places : Part Sample)
        (replies : Part Confirmation), turns = first ++ second ++ [last] ∧
        places.ComesOf c Sample.ofBytes? (Cache.Key.locationsOf eventId) st st' first ∧
        replies.ComesOf c Confirmation.ofBytes? (Cache.Key.confirmationsOf orgId eventId) st st'
          second ∧
        Assembled orgId eventId places replies snap) ∧
    ∀ (st : Stores) (refused : Cache.Call → Prop), ∃ turns snap st',
      Work.Runs unreliable st (take c orgId eventId) turns snap st' ∧
      ∀ turn ∈ turns, ∀ call, turn.effect = .request (.cache call) →
        (Stores.Refuses turn.effect turn.answer ↔ refused call) := by
  refine ⟨fun W st st' turns snap run => ?_, fun st st' turns snap run => ?_,
    exists_runs_take c orgId eventId⟩
  · obtain ⟨first, second, last, places, replies, _, _, hturns, run₁, run₂, -, -, hlast, h⟩ :=
      assembled_of_runs run
    exact ⟨first, second, last, places, replies, hturns, taken_of_runs run₁, taken_of_runs run₂,
      hlast, h⟩
  · obtain ⟨first, second, last, places, replies, st₁, st₂, hturns, run₁, run₂, hpasses,
      hanswers, hlast, h⟩ := assembled_of_runs run
    obtain ⟨hpasses₁, hplaces⟩ := comesOf_of_runs run₁
    obtain ⟨hpasses₂, hreplies⟩ := comesOf_of_runs run₂
    have hnow : st' = last.before :=
      hanswers.eq_of_isElsewhere (congrArg (·.1.isElsewhere) hlast)
    have hpasses₃ : st₂.Passes st' := hnow ▸ hpasses
    exact ⟨first, second, last, places, replies, hturns,
      hplaces.mono (.refl st) (hpasses₂.trans hpasses₃), hreplies.mono hpasses₁ hpasses₃, h⟩

/-- A reply of somebody who has arrived. -/
def arrived : Confirmation := ⟨"o", "e", "a", .checkedIn, .epoch⟩

/-- Stores whose cache has a reply, bytes that are none, a reply that has lapsed, and a location. -/
def mixed : Stores where
  clock := 7
  cache := ⟨⟨[("confirmation:o:e:a", ⟨arrived.toBytes, none⟩),
    ("confirmation:o:e:b", ⟨.empty, none⟩), ("confirmation:o:e:c", ⟨arrived.toBytes, some 5⟩),
    ("location:latest:e:a", ⟨.empty, none⟩)], by decide⟩⟩
  roster := .empty
  trail := .empty

/-- From then on, the reply and the bytes that are none are there. -/
theorem lists_mixed {now : Nat} (h : 7 ≤ now) :
    Lists mixed.cache now "confirmation:o:e:"
      [("confirmation:o:e:a", arrived.toBytes), ("confirmation:o:e:b", .empty)] where
  ascending := by decide
  mem key value := by
    rw [TimedMap.get?_eq_some_iff]
    constructor
    · intro hmem
      simp only [List.mem_cons, List.not_mem_nil, Prod.mk.injEq, or_false] at hmem
      rcases hmem with ⟨rfl, rfl⟩ | ⟨rfl, rfl⟩
      · exact ⟨by decide, ⟨arrived.toBytes, none⟩, rfl, rfl, rfl⟩
      · exact ⟨by decide, ⟨.empty, none⟩, rfl, rfl, rfl⟩
    · rintro ⟨hbegins, e, hfind, hlive, rfl⟩
      have hmem := Keyed.mem_entries_iff.mpr hfind
      simp only [mixed, List.mem_cons, List.not_mem_nil, Prod.mk.injEq, or_false] at hmem
      rcases hmem with ⟨rfl, rfl⟩ | ⟨rfl, rfl⟩ | ⟨rfl, rfl⟩ | ⟨rfl, rfl⟩
      · exact List.mem_cons_self
      · exact List.mem_cons_of_mem _ List.mem_cons_self
      · have hlt : now < 5 := of_decide_eq_true hlive
        omega
      · exact absurd hbegins (by decide)

/-- So one reply can be read, and the bytes that are none are skipped. -/
theorem holds_mixed {now : Nat} (h : 7 ≤ now) {replies : Part Confirmation}
    (hholds : replies.Holds mixed.cache now "confirmation:o:e:" Confirmation.ofBytes?) :
    replies.items = [arrived] ∧ replies.skipped = 1 := by
  obtain ⟨entries, hlists, hitems, hskipped⟩ := hholds
  have harrived : Confirmation.ofBytes? arrived.toBytes = some arrived :=
    Confirmation.ofBytes?_toBytes arrived
  have hnone : Confirmation.ofBytes? .empty = none := by decide +kernel
  obtain rfl := hlists.unique (lists_mixed h)
  rw [hitems, hskipped]
  simp [harrived, hnone]

/-- A snapshot of a cache whose locations cannot be listed: the reply is counted as one who will
come, the bytes that are none are skipped, and what has lapsed does not count. -/
theorem take_mixed : ∃ turns snap st',
    Work.Runs unreliable mixed (take {} "o" "e") turns snap st' ∧ snap.locations = [] ∧
      snap.confirmations = [arrived] ∧ snap.skippedEntries = 1 ∧ snap.totals = ⟨1, 0, 0, 1⟩ := by
  obtain ⟨-, hparts, hruns⟩ := take_assembled {} "o" "e"
  obtain ⟨turns, snap, st', run, hrefused⟩ :=
    hruns mixed fun call => call = .scan (Cache.Key.locationsOf "e") 100
  obtain ⟨first, second, last, places, replies, rfl, hplaces, hreplies, h⟩ := hparts _ _ _ _ run
  have hnowhere : places = {} := hplaces.eq_empty fun turn hturn heffect =>
    (hrefused turn (List.mem_append_left _ (List.mem_append_left _ hturn)) _ heffect).mpr rfl
  have hread : ¬ ∃ turn ∈ second, Stores.Refuses turn.effect turn.answer := by
    rintro ⟨turn, hturn, hrefuses⟩
    have hturn' := List.mem_append_left [last] (List.mem_append_right first hturn)
    rcases hreplies.taken.asks _ (List.mem_map_of_mem hturn) with heffect | ⟨keys, heffect⟩
    · cases (hrefused turn hturn' _ heffect).mp hrefuses
    · cases (hrefused turn hturn' _ heffect).mp hrefuses
  rcases hreplies.holds with ⟨hrefuses, -⟩ | ⟨-, now, hle, -, hholds⟩
  · exact absurd hrefuses hread
  · obtain ⟨hitems, hskipped⟩ := holds_mixed hle hholds
    have hconfirmations : snap.confirmations = [arrived] := h.confirmations.trans hitems
    have hcounts := h.counts
    rw [hconfirmations] at hcounts
    refine ⟨_, snap, st', run, by rw [h.locations, hnowhere], hconfirmations, ?_, ?_⟩
    · rw [h.skippedEntries, hnowhere, hskipped]
    · obtain ⟨hconfirmed, hpending, hdenied, -, htotal⟩ := hcounts
      rw [Tally.mk.injEq]
      exact ⟨hconfirmed, hpending, hdenied, htotal⟩

end Snapshot

end Gathering
