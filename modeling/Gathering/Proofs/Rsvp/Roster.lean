import Gathering.Proofs.Rsvp.Calls
import Gathering.Proofs.Store.Stores

/-!
# What the store says about replies

A participant is found by its identifier, and a call of the store changes at most
what one participant has replied (`Roster.participant?_respond`). So where nothing
fails, an effect either stores a reply of a participant or leaves the participant
as it was (`Stores.Answers.participant?`).

Others may do what they like with events, and add participants. That they leave
replies alone, in the store and in the cache, is said of them and nothing more
(`Stores.KeepsReplies`).
-/

namespace Gathering

namespace Roster

/-- What becomes of a participant when a reply is stored. -/
def Call.reply (p : String) : Call → Participant → Participant
  | .updateParticipantStatus p' status, q => if p = p' then { q with status := status } else q
  | _, q => q

variable {p p' : String}

theorem id_of_participant? {r : Roster} {q : Participant} (h : r.participant? p = some q) :
    q.id = p := by
  have hid := List.find?_some h
  exact of_decide_eq_true hid

theorem Call.reply_of_ne (h : p ≠ p') (status : Rsvp) :
    (Call.updateParticipantStatus p' status).reply p = id :=
  funext fun _ => if_neg h

/-- Storing a reply changes the first participant of the identifier, and nobody else. -/
theorem find?_setFirst (p p' : String) (status : Rsvp) (participants : List Participant) :
    (setFirst p' status participants).find? (·.id = p) =
      (participants.find? (·.id = p)).map ((Call.updateParticipantStatus p' status).reply p) := by
  induction participants with
  | nil => rfl
  | cons q rest ih =>
    unfold setFirst
    by_cases hid : q.id = p'
    · rw [if_pos hid]
      by_cases hq : q.id = p
      · simp [hq, Call.reply, ← hid]
      · have hne : p ≠ p' := fun h => hq (hid.trans h.symm)
        rw [Call.reply_of_ne hne, Option.map_id]
        simp [hq]
    · rw [if_neg hid]
      by_cases hq : q.id = p
      · have hne : p ≠ p' := hq ▸ hid
        simp [hq, Call.reply, hne]
      · simp only [List.find?_cons, hq, decide_false]
        exact ih

/-- **What the store says about a participant after a call.**

Only the call that stores a reply changes participants at all. It stores the reply at the first
one of its identifier, and that is the one who is found under it. -/
theorem participant?_respond (r : Roster) (call : Call) (p : String) :
    (Stores.respond r call).2.participant? p = (r.participant? p).map (call.reply p) := by
  have hsame : r.participant? p = (r.participant? p).map id := (Option.map_id_apply).symm
  cases call with
  | getEvent | listParticipants | getParticipant => exact hsame
  | updateEventStatus eventId status =>
    simp only [Stores.respond, perform, setEventStatus]
    cases r.event? eventId with
    | none => exact hsame
    | some _ => exact hsame
  | updateParticipantStatus p' status =>
    simp only [Stores.respond, perform, setParticipantStatus]
    cases hsomeone : r.participant? p' with
    | some _ => exact find?_setFirst p p' status r.participants
    | none =>
      by_cases hp : p = p'
      · subst hp
        exact hsomeone.trans (by rw [hsomeone, Option.map_none])
      · rw [Call.reply_of_ne hp]
        exact hsame

end Roster

namespace Stores

/-- **Stores that do not fail**, with others who come in between. -/
abbrev faultless (others : Stores → Stores → Prop) : Surroundings Stores :=
  shared (fun _ => False) others

variable {st st' : Stores} {p : String} {q : Participant}

/-- Who stores a reply is answered that it is stored if the participant is there. -/
theorem respond_updateParticipantStatus_fst (r : Roster) (p : String) (status : Rsvp) :
    (respond r (.updateParticipantStatus p status)).1 =
      if (r.participant? p).isSome then .ok () else .error (.notFound "participant" p) := by
  simp only [respond, Roster.perform, Roster.setParticipantStatus]
  cases r.participant? p with
  | none => rfl
  | some _ => rfl

/-- **What becomes of a participant where nothing fails**: its reply is stored, or nothing happens
to it. -/
theorem Answers.participant? {e : Effect} {answer : e.Answer}
    (h : Answers (fun _ => False) st e answer st') (hq : st.roster.participant? p = some q) :
    (st'.roster.participant? p = some q ∧ ¬ Answered.Updates p ⟨e, answer⟩) ∨
      ∃ status, ⟨e, answer⟩ = Answered.update p status ∧
        st'.roster.participant? p = some { q with status := status } := by
  cases h with
  | cache | trail => exact .inl ⟨hq, fun ⟨_, h⟩ => by cases h⟩
  | cacheFails h | rosterFails h | trailFails h => exact h.elim
  | elsewhere he => exact .inl ⟨hq, fun ⟨_, h⟩ => by cases h; cases he⟩
  | roster call =>
    have hnext : (respond st.roster call).2.participant? p = some (call.reply p q) := by
      rw [st.roster.participant?_respond, hq, Option.map_some]
    cases call with
    | getEvent | listParticipants | getParticipant | updateEventStatus =>
      exact .inl ⟨hnext, fun ⟨_, h⟩ => by cases h⟩
    | updateParticipantStatus p' status =>
      by_cases hp : p = p'
      · subst hp
        rw [respond_updateParticipantStatus_fst, hq]
        refine .inr ⟨status, rfl, hnext.trans ?_⟩
        simp only [Roster.Call.reply, if_true]
      · rw [Roster.Call.reply_of_ne hp] at hnext
        refine .inl ⟨hnext, fun ⟨_, h⟩ => hp ?_⟩
        cases congrArg Answered.effect h
        rfl

/-- Whose reply was stored is there. -/
theorem Answers.exists_of_stored {status : Rsvp}
    (h : Answers (fun _ => False) st (.request (.roster (.updateParticipantStatus p status)))
      (.ok ()) st') : ∃ q, st.roster.participant? p = some q := by
  generalize hanswer : (Except.ok () : Except Error Unit) = answer at h
  cases h with
  | roster call =>
    rw [respond_updateParticipantStatus_fst] at hanswer
    refine Option.isSome_iff_exists.mp (Classical.byContradiction fun hnone => ?_)
    rw [if_neg hnone] at hanswer
    cases hanswer
  | rosterFails h => exact h.elim
  | elsewhere h => cases h

theorem Answers.of_getParticipant {answer : Option Participant}
    (h : Answers (fun _ => False) st (.request (.roster (.getParticipant p))) (.ok answer) st') :
    st.roster.participant? p = answer ∧ st' = st := by
  generalize hanswer : (Except.ok answer : Except Error (Option Participant)) = a at h
  cases h with
  | roster call => exact ⟨(Except.ok.inj hanswer).symm, rfl⟩
  | rosterFails h => exact h.elim
  | elsewhere h => cases h

/-- **Others leave replies alone.** Time passes, events change in any way and participants may be
added, but nobody else changes what a participant has replied, or a cached reply. -/
structure KeepsReplies (st st' : Stores) : Prop where
  /-- Time passes. -/
  clock : st.clock ≤ st'.clock
  /-- No cached reply is changed. -/
  cache (o e p : String) : st'.cache.entries.find? (Cache.Key.confirmation o e p) =
    st.cache.entries.find? (Cache.Key.confirmation o e p)
  /-- A participant stays in its event and keeps its reply. -/
  roster {p : String} {q : Participant} (h : st.roster.participant? p = some q) :
    ∃ q', st'.roster.participant? p = some q' ∧ q'.orgId = q.orgId ∧ q'.eventId = q.eventId ∧
      q'.status = q.status

theorem KeepsReplies.refl (st : Stores) : st.KeepsReplies st :=
  ⟨Nat.le_refl _, fun _ _ _ => rfl, fun h => ⟨_, h, rfl, rfl, rfl⟩⟩

end Stores

end Gathering
