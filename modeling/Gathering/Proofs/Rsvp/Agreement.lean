import Gathering.Proofs.Rsvp.Halfway
import Gathering.Proofs.Rsvp.Mirror

/-!
# When the cache agrees with the store

A reply is stored first and copied afterwards, and nothing ties the two together:
there is no transaction, and an entry has no version. So when calls about replies
have come to rest, the cache may say something else than the store.

It is not hard to say when. An entry was written by the last call that wrote under
its name, and a reply was stored by the last call that stored one for its
participant. If it was the same call, the two agree. If it was not, then the one
that stored last has either been **too late** to write, since the lifetime of its
entry was over, or it was **overtaken**: it has stored later and written earlier
than the other, while both of them ran (`Rsvp.shown_agrees`). Both do happen
(`Rsvp.not_neverContradicts`).

Calls are told apart by their numbers, and everything is read off the trace of the
run and the deeds of each call in it. Which of two acts came first is a matter of
their places in the trace.
-/

namespace Gathering

namespace Rsvp

variable {config : Nat → EventCacheConfig} {acts : List Act} {st st' : Stores}

/-- **The last reply came too late for the cache.** The call that stored the participant's last
reply did nothing else: it found that the lifetime of its entry was over. -/
def TooLate (config : Nat → EventCacheConfig) (acts : List Act) (x : Confirmation) : Prop :=
  ∃ n q status at_ event now,
    Act.IsLast (·.deed.Updates x.participantId) acts ⟨n, .update x.participantId status⟩ ∧
    Act.own n acts = stored { x with status := status, updatedAt := at_ } q event ++
      [⟨.request .now, now⟩] ∧
    (lifetimeEnd (config n) event now).remaining now = none

/-- **The last reply was overtaken.** The call that stored the participant's last reply has stored
it later and written its entry earlier than the call whose entry is there. -/
def Overtaken (acts : List Act) (x : Confirmation) : Prop :=
  ∃ n m storedLast storedBefore copiedBefore copiedLast, n ≠ m ∧
    Act.IsLast (·.deed.Updates x.participantId) acts ⟨n, storedLast⟩ ∧
    Act.IsLast (·.deed.Writes x.key) acts ⟨m, copiedLast⟩ ∧
    storedBefore.Updates x.participantId ∧ copiedBefore.Writes x.key ∧
    [⟨m, storedBefore⟩, ⟨n, storedLast⟩].Sublist acts ∧
    [⟨n, copiedBefore⟩, ⟨m, copiedLast⟩].Sublist acts

/-- Who has done something has come to an end, if everybody has. -/
theorem ended_of_mem {W : Surroundings Stores} {start : Stores} {pool : Pool Stores}
    (run : Pool.Run W (Call config) start acts pool) (hdone : ∀ p ∈ pool.programs, p = .done ())
    {a : Act} (ha : a ∈ acts) : Ended (config a.number) (Act.own a.number acts) := by
  have hlt := run.lt_length a ha
  have hprogram : pool.programs[a.number]? = some (.done ()) := by
    rw [List.getElem?_eq_getElem hlt, hdone _ (List.getElem_mem hlt)]
  obtain ⟨p, hcall, hpath⟩ := run.path hprogram
  exact hcall.ended hpath

/-- A call is about a participant who is there. -/
theorem Told.of_seen (told : Told acts st) {n : Nat} {entry : Confirmation} {q : Participant}
    (hbelongs : q.belongsTo entry.orgId entry.eventId = true)
    (hseen : .found entry.participantId q ∈ Act.own n acts) :
    q.id = entry.participantId ∧ ∃ there, st.roster.participant? entry.participantId = some there ∧
      there.orgId = entry.orgId ∧ there.eventId = entry.eventId := by
  obtain ⟨hid, there, hthere, horg, hevent⟩ := told.place (Act.mem_own_iff.mp hseen)
  obtain ⟨horg', hevent'⟩ := Participant.belongsTo_iff.mp hbelongs
  exact ⟨hid, there, hthere, horg.trans horg', hevent.trans hevent'⟩

variable {W : Surroundings Stores} {start : Stores} {pool : Pool Stores} {x : Confirmation}

/-- **Who has written an entry** has stored its reply, and the participant is there.

The entry is what was last written under its name (`Told`), and a call that has written an entry
has ended the way in which its reply was stored first. -/
theorem exists_of_copied (told : Told acts pool.state)
    (run : Pool.Run W (Call config) start acts pool) (hdone : ∀ p ∈ pool.programs, p = .done ())
    {o e p : String} {cached : Cache.Entry}
    (hfind : pool.state.cache.entries.find? (Cache.Key.confirmation o e p) = some cached)
    (hread : Confirmation.ofBytes? cached.value = some x) :
    ∃ m d, Act.IsLast (·.deed.Writes x.key) acts ⟨m, d⟩ ∧
      .update x.participantId x.status ∈ Act.own m acts ∧
      ∃ there, pool.state.roster.participant? x.participantId = some there ∧
        there.orgId = x.orgId ∧ there.eventId = x.eventId := by
  obtain ⟨m, ttl, answer, hcopied⟩ := told.entry hfind
  obtain ⟨entry, q, ttl', answer', hdeed, hbelongs, hseen, hstored⟩ :=
    (ended_of_mem run hdone hcopied.mem).of_writes (Act.mem_own_iff.mpr hcopied.mem) hcopied.holds
  have heffect := congrArg Answered.effect hdeed
  simp only [Effect.request.injEq, Request.cache.injEq, Cache.Call.set.injEq] at heffect
  obtain ⟨hkey, hvalue, -⟩ := heffect
  rw [hvalue, Confirmation.ofBytes?_toBytes] at hread
  obtain rfl : entry = x := Option.some.inj hread
  rw [hkey] at hcopied
  obtain ⟨hid, hthere⟩ := told.of_seen hbelongs hseen
  exact ⟨m, _, hcopied, hid ▸ hstored, hthere⟩

/-- **Who has stored the last reply** has stored no other, and has written its entry or was too
late. -/
theorem exists_of_stored (told : Told acts pool.state)
    (run : Pool.Run W (Call config) start acts pool) (hdone : ∀ p ∈ pool.programs, p = .done ())
    {there : Participant}
    (hthere : pool.state.roster.participant? x.participantId = some there)
    (horg : there.orgId = x.orgId) (hevent : there.eventId = x.eventId) {n : Nat} {d : Answered}
    (hlast : Act.IsLast (·.deed.Updates x.participantId) acts ⟨n, d⟩) :
    (∀ d' ∈ Act.own n acts, d'.Updates x.participantId →
        d' = .update x.participantId there.status) ∧
      ((∃ q at_ event now, Act.own n acts =
            stored { x with status := there.status, updatedAt := at_ } q event ++
              [⟨.request .now, now⟩] ∧
          (lifetimeEnd (config n) event now).remaining now = none) ∨
        ∃ d' ∈ Act.own n acts, d'.Writes x.key) := by
  obtain ⟨entry, q, hsame, hbelongs, hseen, hway⟩ :=
    (ended_of_mem run hdone hlast.mem).of_updates (Act.mem_own_iff.mpr hlast.mem) hlast.holds
  obtain ⟨hid, there', hthere', horg', hevent'⟩ := told.of_seen hbelongs hseen
  -- the call is about the same participant, and what it has stored is what the store says
  obtain ⟨_, hthere'', hdeed⟩ := told.reply hlast
  obtain rfl := Option.some.inj (hthere.symm.trans hthere'')
  obtain ⟨hid', hstatus⟩ := Answered.eq_of_update_eq
    ((hsame d (Act.mem_own_iff.mpr hlast.mem) hlast.holds).symm.trans hdeed)
  have hp : entry.participantId = x.participantId := hid.symm.trans hid'
  rw [hp] at hthere'
  obtain rfl := Option.some.inj (hthere.symm.trans hthere')
  have hentry : entry = { x with status := there.status, updatedAt := entry.updatedAt } := by
    obtain ⟨orgId, eventId, participantId, status, updatedAt⟩ := entry
    obtain rfl : orgId = x.orgId := horg'.symm.trans horg
    obtain rfl : eventId = x.eventId := hevent'.symm.trans hevent
    obtain rfl : participantId = x.participantId := hp
    obtain rfl : status = there.status := hstatus
    rfl
  rw [hentry] at hway
  rw [hid', hstatus] at hsame
  refine ⟨hsame, hway.imp ?_ ?_⟩
  · rintro ⟨event, now, hown, hlate⟩
    exact ⟨q, entry.updatedAt, event, now, hown, hlate⟩
  · rintro ⟨ttl, answer, hmem⟩
    exact ⟨_, hmem, _, _, rfl⟩

/-- **When the cache agrees with the store.** From an empty cache on, any calls about replies run
at the same time and take turns in any order, until none is in progress; and then a snapshot is
taken. Whoever is listed is there, in the event, and has replied what is listed, unless the
participant's last reply came too late for the cache or was overtaken.

Let one call have written the entry last, and another have stored the reply last. If they are the
same call, it has stored what it has written. If not, the other one has written nothing, and was
too late, or it has written earlier, and was overtaken. -/
theorem shown_agrees (hempty : start.cache = .empty)
    (run : Pool.Run (Stores.faultless Stores.KeepsReplies) (Call config) start acts pool)
    (hdone : ∀ p ∈ pool.programs, p = .done ()) {c : EventCacheConfig} {o e : String}
    {turns : List (Turn Stores)} {snap : Snapshot}
    (htaken : Work.Runs (Stores.faultless Stores.KeepsReplies) pool.state
      (Snapshot.take c o e) turns snap st') (hx : x ∈ snap.confirmations) :
    ∃ q, pool.state.roster.participant? x.participantId = some q ∧ q.orgId = x.orgId ∧
      q.eventId = x.eventId ∧ (q.status = x.status ∨ TooLate config acts x ∨ Overtaken acts x) := by
  have told := told_of_run hempty run
  obtain ⟨p, cached, hfind, hread⟩ := find?_of_take htaken hx
  obtain ⟨m, copied, hcopied, hstored, there, hthere, horg, hevent⟩ :=
    exists_of_copied told run hdone hfind hread
  refine ⟨there, hthere, horg, hevent, ?_⟩
  have hupdates : (Answered.update x.participantId x.status).Updates x.participantId := ⟨_, rfl⟩
  obtain ⟨⟨n, last⟩, hlast⟩ := Act.exists_isLast
    (P := (·.deed.Updates x.participantId)) (Act.mem_own_iff.mp hstored) hupdates
  obtain ⟨hsame, hway⟩ := exists_of_stored told run hdone hthere horg hevent hlast
  have hlastdeed := hsame last (Act.mem_own_iff.mpr hlast.mem) hlast.holds
  by_cases hnm : n = m
  · -- the entry and the reply come from one call
    subst hnm
    exact .inl (Answered.eq_of_update_eq (hsame _ hstored hupdates)).2.symm
  · refine .inr ?_
    rcases hway with ⟨q, at_, event, now, hown, hlate⟩ | ⟨copiedBefore, hmem, hwrites⟩
    · exact .inl ⟨n, q, there.status, at_, event, now, hlastdeed ▸ hlast, hown, hlate⟩
    · refine .inr ⟨n, m, last, _, copiedBefore, copied, hnm, hlast, hcopied, hupdates, hwrites,
        hlast.sublist (Act.mem_own_iff.mp hstored) hupdates ?_,
        hcopied.sublist (Act.mem_own_iff.mp hmem) hwrites ?_⟩
      · exact fun h => hnm (congrArg Act.number h).symm
      · exact fun h => hnm (congrArg Act.number h)

/-- What is listed after a reply was recorded and nobody else has done anything. -/
theorem shown_agrees_of_replied :
    ∃ acts pool turns snap st' x, x ∈ snap.confirmations ∧
      Pool.Run (Stores.faultless Stores.KeepsReplies) (Call fun _ => {}) invited acts pool ∧
      (∀ p ∈ pool.programs, p = .done ()) ∧
      Work.Runs (Stores.faultless Stores.KeepsReplies) pool.state
        (Snapshot.take {} guest.orgId guest.eventId) turns snap st' ∧
      ∃ q, pool.state.roster.participant? x.participantId = some q ∧ q.orgId = x.orgId ∧
        q.eventId = x.eventId ∧
        (q.status = x.status ∨ TooLate (fun _ => {}) acts x ∨ Overtaken acts x) := by
  obtain ⟨ttl, acts, hpos, run, -⟩ := exists_accepted Stores.KeepsReplies.refl
  obtain ⟨snap, ⟨turns, htaken⟩, -, hshown⟩ := Snapshot.reaches_take (fun _ => False)
    Stores.KeepsReplies.refl {} guest.orgId guest.eventId (accepted ttl)
  have hx : replyOf .confirmed ∈ snap.confirmations :=
    hshown _ _ _ (get?_accepted hpos) (Cache.Key.begins_confirmationsOf _ _ _)
      (Confirmation.ofBytes?_toBytes _)
  have hdone : ∀ p ∈ [Program.done ()], p = (.done () : Work Unit) :=
    List.forall_mem_singleton.mpr rfl
  exact ⟨acts, _, turns, snap, _, _, hx, run, hdone, htaken, shown_agrees rfl run hdone htaken hx⟩

/-! ## It may disagree

Both exceptions are needed, each without the other. One run has the calls one after another, while
others move the end of the event; in the other one nobody else does anything, but two recordings
run at the same time. -/

/-- **The cache never contradicts the store.** From an empty cache on, any calls about replies run,
in some order, until none is in progress; and then whoever a snapshot lists has replied what is
listed. -/
def NeverContradicts (others : Stores → Stores → Prop) (order : List Act → Prop) : Prop :=
  ∀ (config : Nat → EventCacheConfig) (start : Stores) (acts : List Act) (pool : Pool Stores)
    (c : EventCacheConfig) (o e : String) (turns : List (Turn Stores)) (snap : Snapshot)
    (st' : Stores), start.cache = .empty →
    Pool.Run (Stores.faultless others) (Call config) start acts pool → order acts →
    (∀ p ∈ pool.programs, p = .done ()) →
    Work.Runs (Stores.faultless others) pool.state (Snapshot.take c o e) turns snap st' →
    ∀ x ∈ snap.confirmations,
      ∃ q, pool.state.roster.participant? x.participantId = some q ∧ q.status = x.status

/-- Where the cache never contradicts the store, an entry that can be read tells what is stored. -/
theorem NeverContradicts.status_eq {others : Stores → Stores → Prop} {order : List Act → Prop}
    (h : NeverContradicts others order) (hrefl : ∀ st, others st st) (hempty : start.cache = .empty)
    (run : Pool.Run (Stores.faultless others) (Call config) start acts pool) (horder : order acts)
    (hdone : ∀ p ∈ pool.programs, p = .done ())
    (hget : pool.state.cache.get? pool.state.clock x.key = some x.toBytes) :
    ∃ q, pool.state.roster.participant? x.participantId = some q ∧ q.status = x.status := by
  obtain ⟨snap, ⟨turns, htaken⟩, -, hshown⟩ :=
    Snapshot.reaches_take (fun _ => False) hrefl {} x.orgId x.eventId pool.state
  exact h config start acts pool {} x.orgId x.eventId turns snap _ hempty run horder hdone htaken x
    (hshown x.key x.toBytes x hget (Cache.Key.begins_confirmationsOf _ _ _)
      (Confirmation.ofBytes?_toBytes x))

/-- It may disagree in every order if it may in some. -/
theorem NeverContradicts.imp {others : Stores → Stores → Prop} {order order' : List Act → Prop}
    (h : NeverContradicts others order) (himp : ∀ acts, order' acts → order acts) :
    NeverContradicts others order' :=
  fun config start acts pool c o e turns snap st' hempty run horder =>
    h config start acts pool c o e turns snap st' hempty run (himp acts horder)

/-- **One call after another.** -/
def InTurn (acts : List Act) : Prop := acts.Pairwise fun a b => a.number ≤ b.number

theorem inTurn_append {acts acts' : List Act} {n m : Nat} (h : ∀ a ∈ acts, a.number = n)
    (h' : ∀ a ∈ acts', a.number = m) (hle : n ≤ m) : InTurn (acts ++ acts') := by
  refine List.pairwise_append.mpr ⟨?_, ?_, fun a ha b hb => ?_⟩
  · exact List.pairwise_of_forall_mem_list fun a ha b hb =>
      Nat.le_of_eq ((h a ha).trans (h b hb).symm)
  · exact List.pairwise_of_forall_mem_list fun a ha b hb =>
      Nat.le_of_eq ((h' a ha).trans (h' b hb).symm)
  · rw [h a ha, h' b hb]
    exact hle

/-- **The cache contradicts the store when a reply comes too late for it.** The guest has said to
come, then the end of the meeting is brought forward, and then the guest declines. -/
theorem not_neverContradicts_inTurn : ¬ NeverContradicts Stores.KeepsReplies InTurn := by
  intro h
  obtain ⟨ttl, acts, hpos, run, hacts⟩ := exists_accepted Stores.KeepsReplies.refl
  -- the end of the meeting is brought forward
  let st := { accepted ttl with roster := (accepted ttl).roster.insertEvent (meeting .epoch) }
  have hmeanwhile : (accepted ttl).KeepsReplies st :=
    ⟨Nat.le_refl _, fun _ _ _ => rfl, fun h => ⟨_, h, rfl, rfl, rfl⟩⟩
  have hevent : st.roster.event? guest.eventId = some (meeting .epoch) :=
    (Keyed.find?_insert _ _ _ _).trans (if_pos rfl)
  -- the guest declines, and nothing is copied
  let q := { guest with status := .confirmed }
  have hq : st.roster.participant? q.id = some q := participant?_accepted ttl
  have hlate : (lifetimeEnd {} (some (meeting .epoch)) .epoch).remaining .epoch = none := rfl
  obtain ⟨acts', run', hacts'⟩ := exists_recorded Stores.KeepsReplies.refl
    (run.meanwhile hmeanwhile) hq .denied hevent hlate
  have hdone : ∀ p ∈ [Program.done (), Program.done ()], p = (.done () : Work Unit) := by simp
  obtain ⟨q', hq', hstatus⟩ := h.status_eq (x := replyOf .confirmed) Stores.KeepsReplies.refl rfl
    run' (inTurn_append hacts hacts' (Nat.zero_le _)) hdone (get?_accepted hpos)
  have hdenied := Stores.participant?_replied hq .denied
  obtain rfl := Option.some.inj (hq'.symm.trans hdenied)
  cases hstatus

/-- **The cache contradicts the store when a reply is overtaken.** Two recordings run at the same
time: the guest says to come and declines, in this order, but the entries are written in the other
order. Nobody else does anything. -/
theorem not_neverContradicts_alone : ¬ NeverContradicts Eq (fun _ => True) := by
  intro h
  obtain ⟨ttl, httl, hpos⟩ := exists_remaining_oneHour
  -- the guest says to come, and this is stored
  have hnil : Pool.Run (Stores.faultless Eq) (Call fun _ => {}) invited [] ⟨invited, []⟩ := .nil
  obtain ⟨_, run₁, -⟩ := hnil.call (.record guest.orgId guest.eventId guest.id .confirmed)
    ((leads_secondPart Eq.refl {} participant?_invited .confirmed).map fun _ => ())
  -- the guest declines, and this is stored and copied
  let q := { guest with status := .confirmed }
  have hq : (invited.replied guest.id .confirmed).roster.participant? q.id = some q :=
    Stores.participant?_replied participant?_invited .confirmed
  have hevent : (invited.replied guest.id .confirmed).roster.event? q.eventId =
      some (meeting oneHour) := rfl
  obtain ⟨_, run₂, -⟩ := exists_recorded Eq.refl run₁ hq .denied hevent httl
  -- only now is it copied that the guest has said to come
  obtain ⟨_, run₃, -⟩ := run₂.leads []
    ((reaches_secondPart Eq.refl {} guest .confirmed _ .epoch _).leads.map fun _ => ())
  rw [event?_invited, httl] at run₃
  have hdone : ∀ p ∈ [Program.done (), Program.done ()], p = (.done () : Work Unit) := by simp
  obtain ⟨q', hq', hstatus⟩ := h.status_eq (x := replyOf .confirmed) Eq.refl rfl run₃ trivial
    hdone (Stores.get?_copied _ _ hpos)
  have hdenied := Stores.participant?_replied hq .denied
  obtain rfl := Option.some.inj (hq'.symm.trans hdenied)
  cases hstatus

/-- **The cache may contradict the store**: where calls come one after another, and where nobody
else does anything; so it does not hold of all runs that it never does. -/
theorem not_neverContradicts :
    ¬ NeverContradicts Stores.KeepsReplies (fun _ => True) ∧
      ¬ NeverContradicts Stores.KeepsReplies InTurn ∧ ¬ NeverContradicts Eq (fun _ => True) :=
  ⟨fun h => not_neverContradicts_inTurn (h.imp fun _ _ => trivial), not_neverContradicts_inTurn,
    not_neverContradicts_alone⟩

end Rsvp

end Gathering
