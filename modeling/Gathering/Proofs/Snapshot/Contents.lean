import Gathering.Proofs.Cache.Filing
import Gathering.Proofs.Cache.Key
import Gathering.Proofs.Location.Sample
import Gathering.Proofs.Program.Pool
import Gathering.Proofs.Snapshot.Confirmation

/-!
# What a snapshot shows

A snapshot is taken while recordings run. It lists names and then reads what
stands under them, and others may write in between; but whatever they write is
filed, so what is read under a name is about the identifiers of that name. So a
snapshot shows nothing but what was recorded under its own path
(`Snapshot.shows_of_runs`), and where nobody comes in between it shows all of that
(`Snapshot.reaches_take`).

What may be shown is said by two relations: between events and participants for
locations, and between organisations, events and participants for replies. Whatever
is recorded meanwhile is about identifiers that stand in these relations, and the
cache files nothing else.
-/

namespace Gathering

open Cache (TimedMap)
open Cache.TimedMap (begins)

namespace Snapshot

variable {σ α : Type} {W : Surroundings σ} {st st' : σ}

/-- **How a part of a snapshot is taken**: the keys are listed, and then their values are read; a
cache that fails, or lists nothing, gives an empty part. -/
theorem runs_part {c : EventCacheConfig} {read : ByteArray → Option α} {start : String}
    {turns : List (Turn σ)} {r : Part α} (run : Work.Runs W st (part c read start) turns r st') :
    r.items = [] ∨ ∃ st₁ st₂ st₃ st₄ keys values,
      turns = [⟨st₁, .request (.cache (.scan start c.scanCount)), .ok keys, st₂⟩,
        ⟨st₃, .request (.cache (.getMany keys)), .ok values, st₄⟩] ∧
      r = readAll read ((keys.zip values).map (·.2)) := by
  obtain ⟨st₁, keys?, st₂, rest, rfl, -, -, run⟩ := Work.runs_call_iff.mp run
  match keys? with
  | .error _ =>
    cases run
    exact .inl rfl
  | .ok [] =>
    cases run
    exact .inl rfl
  | .ok (key :: keys) =>
    obtain ⟨st₃, values?, st₄, rest, rfl, -, -, run⟩ := Work.runs_call_iff.mp run
    match values? with
    | .error _ =>
      cases run
      exact .inl rfl
    | .ok values =>
      cases run
      exact .inr ⟨_, _, _, _, key :: keys, values, rfl, rfl⟩

theorem mem_items_readAll {read : ByteArray → Option α} {values : List (Option ByteArray)} {x : α} :
    x ∈ (readAll read values).items ↔ ∃ value, some value ∈ values ∧ read value = some x := by
  unfold readAll
  simp only [List.mem_filterMap, List.mem_map, id_eq]
  constructor
  · rintro ⟨_, ⟨value, ⟨_, hvalue, rfl⟩, rfl⟩, hread⟩
    exact ⟨value, hvalue, hread⟩
  · rintro ⟨value, hvalue, hread⟩
    exact ⟨some x, ⟨value, ⟨some value, hvalue, rfl⟩, hread⟩, rfl⟩

/-! ## What a snapshot may show

A snapshot reads keys that begin with the text of its path. What stands under such a key is filed
there, so its own identifiers make up the key, and they begin as the path does. -/

variable {places : String → String → Prop} {replies : String → String → String → Prop}
  {fails : Request → Prop} {pool pool' : Pool Stores}

/-- The surroundings of a snapshot: recordings that run at the same time. -/
abbrev around (places : String → String → Prop) (replies : String → String → String → Prop)
    (fails : Request → Prop) : Surroundings (Pool Stores) :=
  Pool.around (Stores.shared fails Stores.Passes) (Recording places replies)

/-- Every recording keeps the cache filed. -/
abbrev Keeps (places : String → String → Prop) (replies : String → String → String → Prop) :
    Pool Stores → Prop :=
  Pool.Keeps (Stores.IsFiled places replies) (Files places replies)

/-- **A part shows filed entries only**, and their names begin with its text.

A value that is read stood under a listed key when the values were asked for. Keys are listed
because they begin with the text, and what stands under a key at any time is filed there. -/
theorem mem_items_part {c : EventCacheConfig} {read : ByteArray → Option α} {start : String}
    {turns : List (Turn (Pool Stores))} {r : Part α}
    (run : Work.Runs (around places replies fails) pool (part c read start) turns r pool')
    (hfiled : ∀ turn ∈ turns, turn.before.state.IsFiled places replies) {x : α} (hx : x ∈ r.items) :
    ∃ key value, begins start key = true ∧ Filed places replies key value ∧
      read value = some x := by
  have hanswered := run.answered
  rcases runs_part run with hnil | ⟨pool₁, pool₂, pool₃, pool₄, keys, values, rfl, rfl⟩
  · rw [hnil] at hx
    cases hx
  · obtain ⟨value, hvalue, hread⟩ := mem_items_readAll.mp hx
    have hscan : keys = pool₁.state.cache.scan pool₁.state.clock start :=
      (hanswered _ List.mem_cons_self).1.eq_perform.1
    have hget : values = pool₃.state.cache.getMany pool₃.state.clock keys :=
      (hanswered _ (List.mem_cons_of_mem _ List.mem_cons_self)).1.eq_perform.1
    have hsecond : pool₃.state.IsFiled places replies :=
      hfiled _ (List.mem_cons_of_mem _ List.mem_cons_self)
    rw [hget, TimedMap.map_snd_zip_getMany] at hvalue
    obtain ⟨key, hkey, hlive⟩ := List.mem_map.mp hvalue
    rw [hscan] at hkey
    obtain ⟨entry, hfind, -, rfl⟩ := TimedMap.get?_eq_some_iff.mp hlive
    exact ⟨key, entry.value, (TimedMap.mem_scan_iff.mp hkey).1, hsecond key entry hfind, hread⟩

theorem part_asks (c : EventCacheConfig) (read : ByteArray → Option α) (start : String) :
    (part c read start).Asks (Files places replies) := by
  refine Work.Obeys.call (files_of_ne fun _ _ _ h => by cases h) fun keys? => ?_
  match keys? with
  | .error _ | .ok [] => trivial
  | .ok (key :: keys) =>
    refine Work.Obeys.call (files_of_ne fun _ _ _ h => by cases h) fun values? => ?_
    match values? with
    | .error _ | .ok _ => trivial

theorem take_asks (c : EventCacheConfig) (orgId eventId : String) :
    (take c orgId eventId).Asks (Files places replies) := by
  refine Work.Obeys.bind (part_asks c _ _) fun locations _ _ => ?_
  refine Work.Obeys.bind (part_asks c _ _) fun confirmations _ _ => ?_
  exact Work.Obeys.call (files_of_ne fun _ _ _ h => by cases h) fun _ => trivial

/-- **What a snapshot shows.** Each location and each reply is one that was recorded, and its path
begins like the path of the event; and the replies that it counts are those that it shows. -/
structure Shows (places : String → String → Prop) (replies : String → String → String → Prop)
    (orgId eventId : String) (snap : Snapshot) : Prop where
  /-- The locations, whose identifiers are not blank. -/
  locations : ∀ s ∈ snap.locations, places s.eventId s.participantId ∧
    Text.isBlank s.eventId = false ∧ Text.isBlank s.participantId = false ∧
    begins (eventId ++ ":") (Cache.Key.locationPath s.eventId s.participantId) = true
  /-- The replies. -/
  confirmations : ∀ x ∈ snap.confirmations, replies x.orgId x.eventId x.participantId ∧
    begins (orgId ++ ":" ++ eventId ++ ":")
      (Cache.Key.confirmationPath x.orgId x.eventId x.participantId) = true
  /-- The totals. -/
  totals : snap.totals = Tally.ofReplies (snap.confirmations.map (·.status))

/-- A location is shown under its own path. -/
theorem location_of_filed {eventId key : String} {value : ByteArray} {s : Sample}
    (hbegins : begins (Cache.Key.locationsOf eventId) key = true)
    (hfiled : Filed places replies key value) (hread : Sample.ofBytes? value = some s) :
    places s.eventId s.participantId ∧
      Text.isBlank s.eventId = false ∧ Text.isBlank s.participantId = false ∧
      begins (eventId ++ ":") (Cache.Key.locationPath s.eventId s.participantId) = true := by
  cases hfiled with
  | location s' h he hp =>
    obtain ⟨hevent, hparticipant, -⟩ := Sample.eq_of_ofBytes? hread
    rw [hevent, hparticipant]
    exact ⟨h, he, hp, Cache.Key.begins_location ▸ hbegins⟩
  | reply c h =>
    rw [Cache.Key.begins_locationsOf_confirmation] at hbegins
    cases hbegins

/-- A reply is shown under its own path. -/
theorem confirmation_of_filed {orgId eventId key : String} {value : ByteArray} {x : Confirmation}
    (hbegins : begins (Cache.Key.confirmationsOf orgId eventId) key = true)
    (hfiled : Filed places replies key value) (hread : Confirmation.ofBytes? value = some x) :
    replies x.orgId x.eventId x.participantId ∧
      begins (orgId ++ ":" ++ eventId ++ ":")
        (Cache.Key.confirmationPath x.orgId x.eventId x.participantId) = true := by
  cases hfiled with
  | location s =>
    rw [Cache.Key.begins_confirmationsOf_location] at hbegins
    cases hbegins
  | reply c h =>
    rw [Confirmation.ofBytes?_toBytes] at hread
    cases hread
    exact ⟨h, Cache.Key.begins_confirmation ▸ hbegins⟩

/-- **A snapshot shows what was recorded under its path**, while recordings run.

Recordings keep the cache filed, and a snapshot writes nothing, so in every turn of the run the
cache is filed. The rest is what filed entries say of themselves (`location_of_filed`,
`confirmation_of_filed`). -/
theorem shows_of_runs {c : EventCacheConfig} {orgId eventId : String}
    {turns : List (Turn (Pool Stores))} {snap : Snapshot}
    (run : Work.Runs (around places replies fails) pool (take c orgId eventId) turns snap pool')
    (hkeeps : Keeps places replies pool) : Shows places replies orgId eventId snap := by
  have hfiled := Pool.Keeps.runs (fun _ => Recording.asks) (fun _ _ => Stores.IsFiled.passes)
    (fun _ _ _ _ => Stores.IsFiled.answers) (take_asks c orgId eventId) hkeeps run
  obtain ⟨first, rest, locations, pool₁, rfl, run₁, run⟩ := Work.runs_bind_iff.mp run
  obtain ⟨second, last, confirmations, pool₂, rfl, run₂, run⟩ := Work.runs_bind_iff.mp run
  obtain ⟨_, _, _, _, rfl, -, -, run⟩ := Work.runs_call_iff.mp run
  cases run
  refine ⟨fun s hs => ?_, fun x hx => ?_, rfl⟩
  · obtain ⟨key, value, hbegins, hvalue, hread⟩ := mem_items_part run₁
      (fun turn hturn => hfiled turn (List.mem_append_left _ hturn)) hs
    exact location_of_filed hbegins hvalue hread
  · obtain ⟨key, value, hbegins, hvalue, hread⟩ := mem_items_part run₂
      (fun turn hturn =>
        hfiled turn (List.mem_append_right _ (List.mem_append_left _ hturn))) hx
    exact confirmation_of_filed hbegins hvalue hread

/-! ## Undisturbed snapshots

The other direction: if nobody comes in between, no call fails and nothing lapses, so that what is
there when the snapshot is begun is shown. -/

variable (fails) {others : Stores → Stores → Prop}

/-- An undisturbed part of a snapshot shows everything under its text that can be read. -/
theorem reaches_part (hrefl : ∀ st, others st st) (c : EventCacheConfig)
    (read : ByteArray → Option α) (start : String) (st : Stores) :
    ∃ r : Part α, Work.Reaches (Stores.shared fails others) st (part c read start) r st ∧
      ∀ key value x, st.cache.get? st.clock key = some value → begins start key = true →
        read value = some x → x ∈ r.items := by
  have hlisted : ∀ key value, st.cache.get? st.clock key = some value →
      begins start key = true → key ∈ st.cache.scan st.clock start := fun key value =>
    TimedMap.mem_scan_of_get?
  cases hkeys : (st.cache.perform st.clock (.scan start c.scanCount)).1 with
  | nil =>
    refine ⟨{}, Stores.reaches_cache hrefl ?_, fun key value x hget hbegins _ => ?_⟩
    · rw [hkeys]
      exact .done _ _
    · have hkey := hlisted key value hget hbegins
      rw [show st.cache.scan st.clock start = [] from hkeys] at hkey
      cases hkey
  | cons k ks =>
    refine ⟨readAll read (st.cache.getMany st.clock (k :: ks)), Stores.reaches_cache hrefl ?_,
      fun key value x hget hbegins hread => ?_⟩
    · rw [hkeys, ← TimedMap.map_snd_zip_getMany]
      exact Stores.reaches_cache hrefl (.done _ _)
    · have hkey := hlisted key value hget hbegins
      rw [show st.cache.scan st.clock start = k :: ks from hkeys] at hkey
      exact mem_items_readAll.mpr ⟨value, List.mem_map.mpr ⟨key, hkey, hget⟩, hread⟩

/-- **An undisturbed snapshot shows whatever is there under its path.** -/
theorem reaches_take (hrefl : ∀ st, others st st) (c : EventCacheConfig) (orgId eventId : String)
    (st : Stores) :
    ∃ snap, Work.Reaches (Stores.shared fails others) st (take c orgId eventId) snap st ∧
      (∀ key value s, st.cache.get? st.clock key = some value →
        begins (Cache.Key.locationsOf eventId) key = true → Sample.ofBytes? value = some s →
          s ∈ snap.locations) ∧
      (∀ key value x, st.cache.get? st.clock key = some value →
        begins (Cache.Key.confirmationsOf orgId eventId) key = true →
          Confirmation.ofBytes? value = some x → x ∈ snap.confirmations) := by
  obtain ⟨locations, hlocations, hall⟩ := reaches_part fails hrefl c Sample.ofBytes?
    (Cache.Key.locationsOf eventId) st
  obtain ⟨confirmations, hconfirmations, hall'⟩ := reaches_part fails hrefl c
    Confirmation.ofBytes? (Cache.Key.confirmationsOf orgId eventId) st
  exact ⟨_, hlocations.bind (hconfirmations.bind
    (Stores.reaches_elsewhere hrefl Instant.epoch rfl (.done _ _))), hall, hall'⟩

end Snapshot

end Gathering
