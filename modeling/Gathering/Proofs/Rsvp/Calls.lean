import Gathering.Proofs.Program.Trace
import Gathering.Proofs.Rsvp

/-!
# What a call about a reply has done

A recording of a reply that has come to its end has gone one of three ways
(`Rsvp.Call.ended`). It has stored nothing and copied nothing, because it was
refused or something was missing; or it has stored the reply and copied it to the
cache; or it has stored the reply and copied nothing, because the lifetime of the
entry was over. A removal belongs to the first kind.

Calls are looked at by their deeds, what they have asked for and what was answered,
since many of them run at the same time and each knows nothing but this. What is
said here holds of a call in any run, whatever comes between its deeds.
-/

namespace Gathering

namespace Answered

/-- A participant was looked up and found. -/
abbrev found (participantId : String) (q : Participant) : Answered :=
  ⟨.request (.roster (.getParticipant participantId)), .ok (some q)⟩

/-- A reply of a participant was stored. -/
abbrev update (participantId : String) (status : Rsvp) : Answered :=
  ⟨.request (.roster (.updateParticipantStatus participantId status)), .ok ()⟩

/-- What was stored tells the participant and the reply. -/
theorem eq_of_update_eq {p p' : String} {s s' : Rsvp} (h : update p s = update p' s') :
    p = p' ∧ s = s' := by
  cases h
  exact ⟨rfl, rfl⟩

/-- Whether a reply of a participant was stored. -/
def Updates (participantId : String) (d : Answered) : Prop :=
  ∃ status, d = update participantId status

/-- Whether an entry of the cache was to be written. -/
def Writes (key : String) (d : Answered) : Prop :=
  ∃ value ttl, d.effect = .request (.cache (.set key value ttl))

/-- Whether nothing was stored or written. -/
def IsQuiet (d : Answered) : Prop := (∀ p, ¬ d.Updates p) ∧ ∀ key, ¬ d.Writes key

theorem isQuiet_of_ne {d : Answered}
    (hupdates : ∀ p s, d.effect ≠ .request (.roster (.updateParticipantStatus p s)))
    (hwrites : ∀ key value ttl, d.effect ≠ .request (.cache (.set key value ttl))) :
    d.IsQuiet := by
  constructor
  · rintro p ⟨s, rfl⟩
    exact hupdates p s rfl
  · rintro key ⟨value, ttl, h⟩
    exact hwrites key value ttl h

theorem isQuiet_now (now : Instant) : IsQuiet ⟨.request .now, now⟩ :=
  isQuiet_of_ne (fun _ _ h => by cases h) fun _ _ _ h => by cases h

end Answered

/-- The name of a cached reply. -/
abbrev Confirmation.key (entry : Confirmation) : String :=
  Cache.Key.confirmation entry.orgId entry.eventId entry.participantId

namespace Rsvp

/-- The writing of an entry to the cache. -/
abbrev copying (entry : Confirmation) (ttl : Span) (answer : Except Error Unit) : Answered :=
  ⟨.request (.cache (.set entry.key entry.toBytes (some ttl))), answer⟩

/-- What a recording has done when its reply is stored and it was told the time. -/
def stored (entry : Confirmation) (q : Participant) (event : Option Event) : List Answered :=
  [.found entry.participantId q, ⟨.request (.roster (.getEvent entry.eventId)), .ok event⟩,
    .update q.id entry.status, ⟨.request .now, entry.updatedAt⟩]

/-- **Until when an entry lives**, from the event and the time. -/
def lifetimeEnd (c : EventCacheConfig) (event : Option Event) (now : Instant) : Instant :=
  (event.bind (·.endsAt)).getD (now.add c.defaultTtl)

/-- **What a call that has ended has done.** -/
inductive Ended (c : EventCacheConfig) : List Answered → Prop
  /-- It has stored nothing and written nothing. -/
  | quiet {deeds : List Answered} (h : ∀ d ∈ deeds, d.IsQuiet) : Ended c deeds
  /-- It has stored the reply, and the lifetime of its entry was over. -/
  | late (entry : Confirmation) (q : Participant) (event : Option Event) (now : Instant)
      (hbelongs : q.belongsTo entry.orgId entry.eventId = true)
      (hlate : (lifetimeEnd c event now).remaining now = none) :
      Ended c (stored entry q event ++ [⟨.request .now, now⟩])
  /-- It has stored the reply and written its entry. -/
  | written (entry : Confirmation) (q : Participant) (event : Option Event) (now : Instant)
      (ttl : Span) (answer : Except Error Unit)
      (hbelongs : q.belongsTo entry.orgId entry.eventId = true)
      (httl : (lifetimeEnd c event now).remaining now = some ttl) :
      Ended c (stored entry q event ++ [⟨.request .now, now⟩, copying entry ttl answer])

/-- **A call about a reply**, each with settings of its own. -/
inductive Call (config : Nat → EventCacheConfig) (n : Nat) : Work Unit → Prop
  /-- A reply is recorded. -/
  | record (orgId eventId participantId : String) (status : Rsvp) :
      Call config n ((fun _ => ()) <$> (record (config n) orgId eventId participantId status).run)
  /-- A reply is removed from the cache. -/
  | remove (orgId eventId participantId : String) :
      Call config n ((fun _ => ()) <$> (remove orgId eventId participantId).run)

variable {c : EventCacheConfig} {entry : Confirmation} {q : Participant} {event : Option Event}
  {now : Instant} {deeds : List Answered} {d : Answered}

/-- **Caching an entry** has written it, unless its lifetime was over. -/
theorem path_cache {result : Except Error Unit}
    (path : Work.Path (entry.cache c (event.bind (·.endsAt))).run deeds (.done result)) :
    ∃ now rest, deeds = ⟨.request .now, now⟩ :: rest ∧
      ((lifetimeEnd c event now).remaining now = none ∧ rest = [] ∨
        ∃ ttl answer, (lifetimeEnd c event now).remaining now = some ttl ∧
          rest = [copying entry ttl answer]) := by
  rw [Confirmation.run_cache] at path
  obtain ⟨now, rest, rfl, path₁⟩ := Work.path_call_iff.mp path
  refine ⟨now, rest, rfl, ?_⟩
  cases hremaining : (lifetimeEnd c event now).remaining now with
  | none =>
    rw [lifetimeEnd] at hremaining
    rw [hremaining] at path₁
    exact .inl ⟨rfl, (Work.path_done_iff.mp path₁).1⟩
  | some ttl =>
    rw [lifetimeEnd] at hremaining
    rw [hremaining] at path₁
    exact .inr ⟨ttl, result, rfl, Work.path_single path₁⟩

/-- **A recording that has ended** has gone one of three ways.

The path is followed call by call. Up to the update nothing that was done counts, so that every
early end is a quiet one; and after the update only the caching is left. -/
theorem ended_record {orgId eventId participantId : String} {status : Rsvp}
    {result : Except Error Confirmation}
    (path : Work.Path (record c orgId eventId participantId status).run deeds (.done result)) :
    Ended c deeds := by
  -- looking something up is quiet, and so is an update that is refused
  have hlooked (answer : Except Error (Option Participant)) :
      Answered.IsQuiet ⟨.request (.roster (.getParticipant participantId)), answer⟩ :=
    Answered.isQuiet_of_ne (fun _ _ h => by cases h) fun _ _ _ h => by cases h
  have hasked (answer : Except Error (Option Event)) :
      Answered.IsQuiet ⟨.request (.roster (.getEvent eventId)), answer⟩ :=
    Answered.isQuiet_of_ne (fun _ _ h => by cases h) fun _ _ _ h => by cases h
  have hrefused (q : Participant) (e : Error) :
      Answered.IsQuiet ⟨.request (.roster (.updateParticipantStatus q.id status)), .error e⟩ :=
    ⟨(fun p ⟨s, h⟩ => by cases h), (fun key ⟨value, ttl, h⟩ => by cases h)⟩
  rw [run_record] at path
  obtain ⟨someone?, rest, rfl, path₁⟩ := Work.path_call_iff.mp path
  cases someone? with
  | error e =>
    obtain ⟨rfl, -⟩ := Work.path_done_iff.mp path₁
    exact .quiet (by simp [hlooked])
  | ok someone =>
    dsimp only at path₁
    cases hsomeone : someone.filter (·.belongsTo orgId eventId) with
    | none =>
      rw [hsomeone] at path₁
      obtain ⟨rfl, -⟩ := Work.path_done_iff.mp path₁
      exact .quiet (by simp [hlooked])
    | some q =>
      rw [hsomeone] at path₁
      obtain ⟨rfl, hbelongs⟩ := Option.filter_eq_some_iff.mp hsomeone
      obtain ⟨event?, rest, rfl, path₂⟩ := Work.path_call_iff.mp path₁
      cases event? with
      | error e =>
        obtain ⟨rfl, -⟩ := Work.path_done_iff.mp path₂
        exact .quiet (by simp [hlooked, hasked])
      | ok event =>
        obtain ⟨answer, rest, rfl, path₃⟩ := Work.path_call_iff.mp path₂
        cases answer with
        | error e =>
          obtain ⟨rfl, -⟩ := Work.path_done_iff.mp path₃
          exact .quiet (by simp [hlooked, hasked, hrefused])
        | ok _ =>
          obtain ⟨at_, rest, rfl, path₄⟩ := Work.path_call_iff.mp path₃
          -- the reply is stored; what is left is the caching of its entry
          obtain ⟨first, last, copied, rfl, hcache, hdone⟩ := Work.path_bind_iff.mp path₄
          obtain ⟨rfl, -⟩ := Work.path_done_iff.mp hdone
          rw [List.append_nil]
          let entry : Confirmation := ⟨orgId, eventId, participantId, status, at_⟩
          obtain ⟨now, _, rfl, ⟨hlate, rfl⟩ | ⟨ttl, answer, httl, rfl⟩⟩ := path_cache hcache
          · exact .late entry q event now hbelongs hlate
          · exact .written entry q event now ttl answer hbelongs httl

/-- **Every call that has ended** has gone one of three ways. -/
theorem Call.ended {config : Nat → EventCacheConfig} {n : Nat} {p : Work Unit}
    (hcall : Call config n p) (path : p.Path deeds (.done ())) : Ended (config n) deeds := by
  cases hcall with
  | record orgId eventId participantId status =>
    obtain ⟨result, -, path₁⟩ := Work.path_map_iff.mp path
    exact ended_record path₁
  | remove orgId eventId participantId =>
    obtain ⟨result, -, path₁⟩ := Work.path_map_iff.mp path
    obtain rfl := Work.path_single path₁
    exact .quiet (List.forall_mem_singleton.mpr
      (Answered.isQuiet_of_ne (fun _ _ h => by cases h) fun _ _ _ h => by cases h))

/-! ## What a call has stored and written

A call stores one reply at most and writes one entry at most, and the entry is about the reply
that was stored before. -/

theorem eq_update_of_mem {p : String} {rest : List Answered} (hrest : ∀ d ∈ rest, ¬ d.Updates p)
    (hd : d ∈ stored entry q event ++ rest) (h : d.Updates p) : d = .update q.id entry.status := by
  rcases List.mem_append.mp hd with hd | hd
  · obtain ⟨status, rfl⟩ := h
    simp only [stored, List.mem_cons, List.not_mem_nil, or_false] at hd
    rcases hd with h | h | h | h
    · cases h
    · cases h
    · cases h
      rfl
    · cases h
  · exact absurd h (hrest d hd)

/-- What a recording has written, it has written after that. -/
theorem mem_of_writes {key : String} {rest : List Answered} (hd : d ∈ stored entry q event ++ rest)
    (h : d.Writes key) : d ∈ rest := by
  rcases List.mem_append.mp hd with hd | hd
  · obtain ⟨value, ttl, h⟩ := h
    simp only [stored, List.mem_cons, List.not_mem_nil, or_false] at hd
    rcases hd with rfl | rfl | rfl | rfl
    · cases h
    · cases h
    · cases h
    · cases h
  · exact hd

/-- **Who has written an entry** has stored its reply. -/
theorem Ended.of_writes {key : String} (h : Ended c deeds) (hd : d ∈ deeds)
    (hwrites : d.Writes key) :
    ∃ entry q ttl answer, d = copying entry ttl answer ∧
      q.belongsTo entry.orgId entry.eventId = true ∧
      .found entry.participantId q ∈ deeds ∧
      .update q.id entry.status ∈ deeds := by
  cases h with
  | quiet h => exact absurd hwrites ((h d hd).2 key)
  | late entry q event now hbelongs hlate =>
    obtain rfl := List.mem_singleton.mp (mem_of_writes hd hwrites)
    exact absurd hwrites ((Answered.isQuiet_now now).2 key)
  | written entry q event now ttl answer hbelongs httl =>
    rcases List.mem_cons.mp (mem_of_writes hd hwrites) with rfl | hd
    · exact absurd hwrites ((Answered.isQuiet_now now).2 key)
    · obtain rfl := List.mem_singleton.mp hd
      exact ⟨entry, q, ttl, answer, rfl, hbelongs, by simp [stored], by simp [stored]⟩

/-- **Who has stored a reply** has stored no other, and has written its entry or was too late. -/
theorem Ended.of_updates {p : String} (h : Ended c deeds) (hd : d ∈ deeds)
    (hupdates : d.Updates p) :
    ∃ entry q, (∀ d ∈ deeds, d.Updates p → d = .update q.id entry.status) ∧
      q.belongsTo entry.orgId entry.eventId = true ∧
      .found entry.participantId q ∈ deeds ∧
      ((∃ event now, deeds = stored entry q event ++ [⟨.request .now, now⟩] ∧
          (lifetimeEnd c event now).remaining now = none) ∨
        ∃ ttl answer, copying entry ttl answer ∈ deeds) := by
  cases h with
  | quiet h => exact absurd hupdates ((h d hd).1 p)
  | late entry q event now hbelongs hlate =>
    have hrest : ∀ d ∈ [⟨.request .now, now⟩], ¬ Answered.Updates p d :=
      List.forall_mem_singleton.mpr ((Answered.isQuiet_now now).1 p)
    exact ⟨entry, q, fun d => eq_update_of_mem hrest, hbelongs, by simp [stored],
      .inl ⟨event, now, rfl, hlate⟩⟩
  | written entry q event now ttl answer hbelongs httl =>
    have hcopying : ¬ (copying entry ttl answer).Updates p := by
      rintro ⟨status, h⟩
      cases h
    have hrest : ∀ d ∈ [⟨.request .now, now⟩, copying entry ttl answer], ¬ Answered.Updates p d :=
      List.forall_mem_cons.mpr
        ⟨(Answered.isQuiet_now now).1 p, List.forall_mem_singleton.mpr hcopying⟩
    exact ⟨entry, q, fun d => eq_update_of_mem hrest, hbelongs, by simp [stored],
      .inr ⟨ttl, answer, by simp⟩⟩

end Rsvp

end Gathering
