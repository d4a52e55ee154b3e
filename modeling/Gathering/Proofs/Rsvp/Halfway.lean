import Gathering.Proofs.Rsvp.Roster

/-!
# Recordings that are left halfway

A recording is in two parts: it stores the reply, and then it copies it to the
cache. Undisturbed, the first part leads to the second (`Rsvp.leads_secondPart`),
which may be left for later: whatever the stores hold when it goes on, it copies
the reply (`Rsvp.reaches_secondPart`).

So two recordings can be put together in any order of their parts, and that is how
the runs are made in which the cache comes to contradict the store.
-/

namespace Gathering

open Cache (TimedMap)

namespace Stores

/-- The stores once a reply is stored. -/
def replied (st : Stores) (participantId : String) (status : Rsvp) : Stores :=
  { st with roster := (respond st.roster (.updateParticipantStatus participantId status)).2 }

/-- The stores once an entry is copied to the cache for the rest of its lifetime, if there is any
left. -/
def copied (st : Stores) (entry : Confirmation) : Option Span → Stores
  | none => st
  | some ttl => { st with cache := st.cache.set st.clock entry.key entry.toBytes (some ttl) }

variable {fails : Request → Prop} {others : Stores → Stores → Prop} {st st' : Stores}

theorem participant?_replied {p : String} {q : Participant}
    (h : st.roster.participant? p = some q) (status : Rsvp) :
    (st.replied p status).roster.participant? p = some { q with status := status } := by
  refine (st.roster.participant?_respond _ p).trans ?_
  rw [h, Option.map_some]
  simp only [Roster.Call.reply, if_true]

theorem get?_copied (st : Stores) (entry : Confirmation) {ttl : Span} (h : 0 < ttl.nanos) :
    (st.copied entry (some ttl)).cache.get? st.clock entry.key = some entry.toBytes :=
  TimedMap.get?_set_self _ _ _ _ h

/-- The store of events and participants is called, and nobody comes in between. -/
theorem leads_roster {α : Type} {p' : Work α} (hrefl : ∀ st, others st st) {call : Roster.Call}
    {next : Except Error call.Answer → Work α} {answer : Except Error call.Answer} {r : Roster}
    (h : respond st.roster call = (answer, r))
    (rest : Work.Leads (shared fails others) { st with roster := r } (next answer) p' st') :
    Work.Leads (shared fails others) st (Work.request (.roster call) >>= next) p' st' := by
  have hanswers : Answers fails st (.request (.roster call)) _ _ := .roster call
  rw [h] at hanswers
  exact .ask (hrefl st) hanswers rest

end Stores

variable {fails : Request → Prop} {others : Stores → Stores → Prop} {st : Stores}

/-- **An undisturbed copying of a reply.** -/
theorem Confirmation.reaches_copied (hrefl : ∀ st, others st st) (st : Stores)
    (c : EventCacheConfig) (entry : Confirmation) (event : Option Event) (now : Instant) :
    Work.Reaches (Stores.shared fails others) st (entry.cache c (event.bind (·.endsAt))).run
      (.ok ()) (st.copied entry ((Rsvp.lifetimeEnd c event now).remaining now)) := by
  rw [run_cache]
  refine Stores.reaches_elsewhere hrefl now rfl ?_
  unfold Rsvp.lifetimeEnd
  cases ((event.bind (·.endsAt)).getD (now.add c.defaultTtl)).remaining now with
  | none => exact .done _ _
  | some ttl => exact Stores.reaches_cache hrefl (.done _ _)

namespace Rsvp

/-- **What is left of a recording** once its reply is stored.

It knows the event as it was looked up before, so the lifetime of the entry is reckoned from an
end that may have been moved since. -/
def secondPart (c : EventCacheConfig) (q : Participant) (status : Rsvp) (event : Option Event) :
    Work (Except Error Confirmation) := do
  let now ← Work.now
  let entry : Confirmation := ⟨q.orgId, q.eventId, q.id, status, now⟩
  let _ ← (entry.cache c (event.bind (·.endsAt))).run
  return .ok entry

/-- **An undisturbed recording stores its reply**, and it may be left there. -/
theorem leads_secondPart (hrefl : ∀ st, others st st) (c : EventCacheConfig) {q : Participant}
    (hq : st.roster.participant? q.id = some q) (status : Rsvp) :
    Work.Leads (Stores.shared fails others) st (record c q.orgId q.eventId q.id status).run
      (secondPart c q status (st.roster.event? q.eventId)) (st.replied q.id status) := by
  have hget : Stores.respond st.roster (.getParticipant q.id) = (.ok (some q), st.roster) := by
    simp only [Stores.respond, Roster.perform, hq]
  have hupdate : Stores.respond st.roster (.updateParticipantStatus q.id status) =
      (.ok (), (st.replied q.id status).roster) := by
    refine Prod.ext ?_ rfl
    rw [Stores.respond_updateParticipantStatus_fst, hq]
    rfl
  have hbelongs : q.belongsTo q.orgId q.eventId = true := Participant.belongsTo_iff.mpr ⟨rfl, rfl⟩
  rw [run_record]
  refine Stores.leads_roster hrefl hget ?_
  simp only [Option.filter, hbelongs, if_true]
  refine Stores.leads_roster hrefl rfl ?_
  exact Stores.leads_roster hrefl hupdate (.refl _ _)

/-- **What is left of a recording copies the reply**, if it is undisturbed. -/
theorem reaches_secondPart (hrefl : ∀ st, others st st) (c : EventCacheConfig) (q : Participant)
    (status : Rsvp) (event : Option Event) (now : Instant) (st : Stores) :
    Work.Reaches (Stores.shared fails others) st (secondPart c q status event)
      (.ok ⟨q.orgId, q.eventId, q.id, status, now⟩)
      (st.copied ⟨q.orgId, q.eventId, q.id, status, now⟩
        ((lifetimeEnd c event now).remaining now)) := by
  refine Stores.reaches_elsewhere hrefl now rfl ?_
  exact (Confirmation.reaches_copied hrefl st c _ event now).bind (.done _ _)

/-- **An undisturbed recording** stores its reply and copies it. -/
theorem leads_record (hrefl : ∀ st, others st st) (c : EventCacheConfig) {q : Participant}
    (hq : st.roster.participant? q.id = some q) (status : Rsvp) (now : Instant) :
    Work.Leads (Stores.shared fails others) st (record c q.orgId q.eventId q.id status).run
      (.done (.ok ⟨q.orgId, q.eventId, q.id, status, now⟩))
      ((st.replied q.id status).copied ⟨q.orgId, q.eventId, q.id, status, now⟩
        ((lifetimeEnd c (st.roster.event? q.eventId) now).remaining now)) :=
  (leads_secondPart hrefl c hq status).trans
    (reaches_secondPart hrefl c q status _ now _).leads

/-- **A recording in a run** that nobody disturbs. -/
theorem exists_recorded {config : Nat → EventCacheConfig} {start : Stores} {acts : List Act}
    {programs : List (Work Unit)} (hrefl : ∀ st, others st st)
    (run : Pool.Run (Stores.shared fails others) (Call config) start acts ⟨st, programs⟩)
    {q : Participant} (hq : st.roster.participant? q.id = some q) (status : Rsvp)
    {event : Option Event} (hevent : st.roster.event? q.eventId = event) {now : Instant}
    {ttl : Option Span}
    (httl : (lifetimeEnd (config programs.length) event now).remaining now = ttl) :
    ∃ acts', Pool.Run (Stores.shared fails others) (Call config) start (acts ++ acts')
        ⟨(st.replied q.id status).copied ⟨q.orgId, q.eventId, q.id, status, now⟩ ttl,
          programs ++ [.done ()]⟩ ∧
      ∀ x ∈ acts', x.number = programs.length := by
  subst hevent httl
  exact run.call (.record q.orgId q.eventId q.id status)
    ((leads_record hrefl _ hq status now).map fun _ => ())

/-! ## A guest -/

/-- Someone who is invited to a meeting. -/
def guest : Participant := ⟨"p", "e", "o", "", "", .pending⟩

/-- The meeting, with its end. -/
def meeting (endsAt : Instant) : Event :=
  ⟨"e", "o", "", .scheduled, .epoch, some endsAt, none⟩

/-- One hour after the epoch. -/
def oneHour : Instant := ⟨3600, 0, by decide, by decide, by decide⟩

/-- Stores that hold the guest and the meeting. -/
def invited : Stores :=
  { Stores.empty with roster := ⟨Keyed.empty.insert "e" (meeting oneHour), [guest]⟩ }

theorem participant?_invited : invited.roster.participant? guest.id = some guest := rfl

theorem event?_invited : invited.roster.event? guest.eventId = some (meeting oneHour) := rfl

/-- What the guest replies at the epoch. -/
abbrev replyOf (status : Rsvp) : Confirmation :=
  ⟨guest.orgId, guest.eventId, guest.id, status, .epoch⟩

/-- While the meeting lasts, an entry lives for a while. -/
theorem exists_remaining_oneHour : ∃ ttl : Span,
    (lifetimeEnd {} (some (meeting oneHour)) .epoch).remaining .epoch = some ttl ∧
      0 < ttl.nanos :=
  ⟨_, rfl, by decide⟩

/-- The stores once the guest has said to come. -/
def accepted (ttl : Span) : Stores :=
  (invited.replied guest.id .confirmed).copied (replyOf .confirmed) (some ttl)

theorem participant?_accepted (ttl : Span) : (accepted ttl).roster.participant? guest.id =
    some { guest with status := .confirmed } :=
  Stores.participant?_replied participant?_invited .confirmed

theorem get?_accepted {ttl : Span} (h : 0 < ttl.nanos) :
    (accepted ttl).cache.get? (accepted ttl).clock (replyOf .confirmed).key =
      some (replyOf .confirmed).toBytes :=
  Stores.get?_copied _ _ h

/-- **The guest says to come**, and nobody else does anything. -/
theorem exists_accepted (hrefl : ∀ st, others st st) :
    ∃ ttl acts, 0 < ttl.nanos ∧
      Pool.Run (Stores.faultless others) (Call fun _ => {}) invited acts
        ⟨accepted ttl, [.done ()]⟩ ∧ ∀ a ∈ acts, a.number = 0 := by
  obtain ⟨ttl, httl, hpos⟩ := exists_remaining_oneHour
  have hnil : Pool.Run (Stores.faultless others) (Call fun _ => {}) invited [] ⟨invited, []⟩ := .nil
  obtain ⟨acts, run, hacts⟩ :=
    exists_recorded hrefl hnil participant?_invited .confirmed event?_invited httl
  exact ⟨ttl, acts, hpos, run, hacts⟩

end Rsvp

end Gathering
