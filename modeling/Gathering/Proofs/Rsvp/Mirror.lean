import Gathering.Proofs.Cache.Filing
import Gathering.Proofs.Rsvp.Roster
import Gathering.Proofs.Snapshot.Contents

/-!
# What traces tell about replies

While calls about replies run, the store and the cache are told by the trace alone
(`Rsvp.Told`): an entry is what was last written under its name, a participant has
replied what was last stored for it, and it stays where a call has seen it. One
act more keeps this (`Rsvp.Told.concat`), and so does whatever others do.

A snapshot that is taken when no call is in progress writes nothing, so it lists
what was cached when it was begun (`Rsvp.find?_of_take`).

So the question which entry or which reply is there becomes a question about the
last deed of a kind in a list, and the stores need not be looked at again.
-/

namespace Gathering

namespace Rsvp

/-! ## What a trace tells about the stores

Each field names the deed that it goes back to by its place in the trace, as the last of its kind
(`Act.IsLast`). One more act is either of that kind, and then it is the last one, or it is not,
and then the last one stays. -/

/-- **What a trace tells.** The last writing under a name tells the entry, the last storing tells
the reply of a participant, and what a call has seen of a participant tells its event. -/
structure Told (acts : List Act) (st : Stores) : Prop where
  /-- An entry is what was last written under its name. -/
  entry {o e p : String} {entry : Cache.Entry}
    (h : st.cache.entries.find? (Cache.Key.confirmation o e p) = some entry) :
    ∃ n ttl answer, Act.IsLast (·.deed.Writes (Cache.Key.confirmation o e p)) acts
      ⟨n, .request (.cache (.set (Cache.Key.confirmation o e p) entry.value ttl)), answer⟩
  /-- A participant has replied what was last stored. -/
  reply {p : String} {a : Act} (h : Act.IsLast (·.deed.Updates p) acts a) :
    ∃ q, st.roster.participant? p = some q ∧ a.deed = .update p q.status
  /-- A participant is where it was seen. -/
  place {n : Nat} {p : String} {q : Participant}
    (h : ⟨n, .found p q⟩ ∈ acts) :
    q.id = p ∧ ∃ q', st.roster.participant? p = some q' ∧ q'.orgId = q.orgId ∧
      q'.eventId = q.eventId

variable {acts : List Act} {st st' : Stores}

/-- At first nothing has happened, and nothing is cached. -/
theorem Told.nil (h : st.cache = .empty) : Told [] st where
  entry hfind := by
    rw [h] at hfind
    cases hfind
  reply h := by
    cases h.mem
  place h := by
    cases h

theorem Told.meanwhile (h : Told acts st) (hkeeps : st.KeepsReplies st') : Told acts st' where
  entry hfind := h.entry (hkeeps.cache _ _ _ ▸ hfind)
  reply hlast := by
    obtain ⟨q, hq, hdeed⟩ := h.reply hlast
    obtain ⟨q', hq', -, -, hsame⟩ := hkeeps.roster hq
    exact ⟨q', hq', hsame ▸ hdeed⟩
  place hmem := by
    obtain ⟨hid, q₁, hq₁, horg, hevent⟩ := h.place hmem
    obtain ⟨q', hq', horg', hevent', -⟩ := hkeeps.roster hq₁
    exact ⟨hid, q', hq', horg'.trans horg, hevent'.trans hevent⟩

/-- **One act more is told, too.**

Each field for itself. What the act leaves of an entry, of a reply and of a participant is told by
its answer. -/
theorem Told.concat (h : Told acts st) {n : Nat} {e : Effect} {answer : e.Answer}
    (hanswer : Stores.Answers (fun _ => False) st e answer st') :
    Told (acts ++ [⟨n, e, answer⟩]) st' where
  entry {o e' p entry} hfind := by
    by_cases hwrites : Answered.Writes (Cache.Key.confirmation o e' p) ⟨e, answer⟩
    · -- what was written now is what is there
      obtain ⟨value, ttl, rfl⟩ : ∃ value ttl, e = _ := hwrites
      have hset : st'.cache = st.cache.set st.clock (Cache.Key.confirmation o e' p) value ttl := by
        cases hanswer with
        | cache => rfl
        | cacheFails h => exact h.elim
        | elsewhere h => cases h
      rw [hset, Cache.TimedMap.find?_set, if_pos rfl] at hfind
      cases hfind
      exact ⟨n, ttl, answer, Act.isLast_concat_iff.mpr (.inl ⟨⟨value, ttl, rfl⟩, rfl⟩)⟩
    · -- what was not written now was there before, with the same bytes
      obtain ⟨old, hold, hvalue⟩ : ∃ old, st.cache.entries.find? _ = some old ∧
          old.value = entry.value :=
        (hanswer.value hfind).resolve_right fun ⟨ttl, he⟩ => hwrites ⟨entry.value, ttl, he⟩
      obtain ⟨m, ttl, answer', hlast⟩ := h.entry hold
      rw [hvalue] at hlast
      exact ⟨m, ttl, answer', Act.isLast_concat_iff.mpr (.inr ⟨hwrites, hlast⟩)⟩
  reply {p a} hlast := by
    rcases Act.isLast_concat_iff.mp hlast with ⟨⟨status, hdeed⟩, rfl⟩ | ⟨hother, hlast⟩
    · cases hdeed
      obtain ⟨q, hq⟩ := hanswer.exists_of_stored
      rcases hanswer.participant? hq with ⟨-, hother⟩ | ⟨status', hdeed, hq'⟩
      · exact absurd ⟨status, rfl⟩ hother
      · exact ⟨_, hq', hdeed⟩
    · obtain ⟨q, hq, hdeed⟩ := h.reply hlast
      rcases hanswer.participant? hq with ⟨hq', -⟩ | ⟨status', hstored, -⟩
      · exact ⟨q, hq', hdeed⟩
      · exact absurd ⟨status', hstored⟩ hother
  place {m p q} hmem := by
    rcases List.mem_append.mp hmem with hmem | hmem
    · obtain ⟨hid, q₁, hq₁, horg, hevent⟩ := h.place hmem
      rcases hanswer.participant? hq₁ with ⟨hq', -⟩ | ⟨status', -, hq'⟩
      · exact ⟨hid, q₁, hq', horg, hevent⟩
      · exact ⟨hid, _, hq', horg, hevent⟩
    · cases List.mem_singleton.mp hmem
      obtain ⟨hq, rfl⟩ := hanswer.of_getParticipant
      exact ⟨Roster.id_of_participant? hq, q, hq, rfl, rfl⟩

/-- **The trace of a run tells what the stores say**, if nothing was cached at first. -/
theorem told_of_run {calls : Nat → Work Unit → Prop} {start : Stores} {pool : Pool Stores}
    (hempty : start.cache = .empty)
    (run : Pool.Run (Stores.faultless Stores.KeepsReplies) calls start acts pool) :
    Told acts pool.state := by
  induction run with
  | nil => exact .nil hempty
  | starts _ _ ih => exact ih
  | asks _ hanswer ih => exact ih.concat hanswer
  | meanwhile _ hkeeps ih => exact ih.meanwhile hkeeps

/-! ## What a snapshot lists

A snapshot writes nothing, and others may pass time and move the ends of events, but they do not
reply. So what it reads was cached when it was begun. -/

/-- Whether nothing new has come to be cached about replies. -/
def NoneNew (st st' : Stores) : Prop :=
  ∀ o e p entry, st'.cache.entries.find? (Cache.Key.confirmation o e p) = some entry →
    ∃ old, st.cache.entries.find? (Cache.Key.confirmation o e p) = some old ∧
      old.value = entry.value

theorem NoneNew.refl (st : Stores) : NoneNew st st := fun _ _ _ entry h => ⟨entry, h, rfl⟩

variable {st₁ st₂ : Stores}

theorem NoneNew.meanwhile (h : NoneNew st st₁) (hkeeps : st₁.KeepsReplies st₂) : NoneNew st st₂ :=
  fun o e p entry hfind => h o e p entry (hkeeps.cache o e p ▸ hfind)

theorem not_filed {key : String} {value : ByteArray} :
    ¬ Filed (fun _ _ => False) (fun _ _ _ => False) key value := by
  rintro (⟨_, h⟩ | ⟨_, h⟩)
  · exact h
  · exact h

theorem NoneNew.answers {e : Effect} {answer : e.Answer}
    (hwrites : Files (fun _ _ => False) (fun _ _ _ => False) e) (h : NoneNew st st₁)
    (hanswer : Stores.Answers (fun _ => False) st₁ e answer st₂) : NoneNew st st₂ := by
  intro o e' p entry hfind
  rcases hanswer.value hfind with ⟨old, hold, hvalue⟩ | ⟨ttl, he⟩
  · obtain ⟨oldest, holdest, hvalue'⟩ := h o e' p old hold
    exact ⟨oldest, holdest, hvalue'.trans hvalue⟩
  · exact absurd (hwrites _ _ _ he) not_filed

/-- **What a snapshot lists was cached when it was begun**, if nobody replies meanwhile. -/
theorem find?_of_take {c : EventCacheConfig} {o e : String} {turns : List (Turn Stores)}
    {snap : Snapshot}
    (run : Work.Runs (Stores.faultless Stores.KeepsReplies) st (Snapshot.take c o e)
      turns snap st') {x : Confirmation} (hx : x ∈ snap.confirmations) :
    ∃ p entry, st.cache.entries.find? (Cache.Key.confirmation o e p) = some entry ∧
      Confirmation.ofBytes? entry.value = some x := by
  have hasks : (Snapshot.take c o e).Asks (Files (fun _ _ => False) fun _ _ _ => False) :=
    Snapshot.take_asks c o e
  -- while the snapshot is taken nobody writes a reply, so what it finds was there before
  have hnone : ∀ turn ∈ turns, NoneNew st turn.before := fun turn hturn =>
    ((run.keeps (I := fun _ => NoneNew st) hasks (fun _ _ _ => .meanwhile)
      (fun _ _ _ _ _ => .answers) (.refl st)).2 turn hturn).elim fun _ h => h.2
  obtain ⟨first, rest, locations, st₁, rfl, -, run⟩ := Work.runs_bind_iff.mp run
  obtain ⟨second, last, confirmations, st₂, rfl, run₂, run⟩ := Work.runs_bind_iff.mp run
  have hnone₂ : ∀ turn ∈ second, NoneNew st turn.before := fun turn hturn =>
    hnone turn (List.mem_append_right _ (List.mem_append_left _ hturn))
  have hanswered := run₂.answered
  obtain ⟨_, _, _, _, rfl, -, -, run⟩ := Work.runs_call_iff.mp run
  cases run
  rcases Snapshot.runs_part run₂ with hnil | ⟨st₃, st₄, st₅, st₆, keys, values, rfl, rfl⟩
  · rw [show confirmations.items = [] from hnil] at hx
    cases hx
  · obtain ⟨value, hvalue, hread⟩ := Snapshot.mem_items_readAll.mp hx
    have hscan : keys = st₃.cache.scan st₃.clock (Cache.Key.confirmationsOf o e) :=
      (hanswered _ List.mem_cons_self).eq_perform.1
    have hget : values = st₅.cache.getMany st₅.clock keys :=
      (hanswered _ (List.mem_cons_of_mem _ List.mem_cons_self)).eq_perform.1
    rw [hget, Cache.TimedMap.map_snd_zip_getMany] at hvalue
    obtain ⟨key, hkey, hlive⟩ := List.mem_map.mp hvalue
    rw [hscan] at hkey
    -- the key was listed, so it is that of a reply to this event
    obtain ⟨p, rfl⟩ : ∃ p, key = Cache.Key.confirmation o e p :=
      Cache.Key.eq_confirmation_of_begins (Cache.TimedMap.mem_scan_iff.mp hkey).1
    obtain ⟨entry, hfind, -, rfl⟩ := Cache.TimedMap.get?_eq_some_iff.mp hlive
    obtain ⟨old, hold, hvalue⟩ :=
      hnone₂ _ (List.mem_cons_of_mem _ List.mem_cons_self) o e p entry hfind
    exact ⟨p, old, hold, hvalue ▸ hread⟩

end Rsvp

end Gathering
