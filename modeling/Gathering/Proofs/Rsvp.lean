import Gathering.Proofs.Program.Run
import Gathering.Rsvp

/-!
# Recording a reply, effect by effect

The programs that record a reply and cache it are written out
(`Rsvp.run_record`, `Confirmation.run_cache`), with the errors as values: which
effect comes after which answer, and where the recording ends.

The proofs follow the program: an answer that is an error ends it, and the equation
holds by definition; an answer that is a value leads to the next call, and both
sides go on with it. So the equations hold whatever the stores are and whatever they
answer, and the runs of these programs are taken apart with them.
-/

namespace Gathering

/-- **How a reply is cached.** -/
theorem Confirmation.run_cache (c : EventCacheConfig) (entry : Confirmation)
    (until_ : Option Instant) :
    (entry.cache c until_).run = (do
      let now ← Work.now
      match (until_.getD (now.add c.defaultTtl)).remaining now with
      | none => return .ok ()
      | some ttl =>
        Work.request (.cache
          (.set (Cache.Key.confirmation entry.orgId entry.eventId entry.participantId) entry.toBytes
            (some ttl)))) := by
  unfold cache
  simp only [Job.now, ExceptT.run_bind_lift]
  refine congrArg (Work.now >>= ·) (funext fun now => ?_)
  cases (until_.getD (now.add c.defaultTtl)).remaining now <;> rfl

/-- Whether a participant belongs to an event of an organisation. -/
def Participant.belongsTo (p : Participant) (orgId eventId : String) : Bool :=
  p.eventId = eventId && p.orgId = orgId

theorem Participant.belongsTo_iff {p : Participant} {orgId eventId : String} :
    p.belongsTo orgId eventId = true ↔ p.orgId = orgId ∧ p.eventId = eventId := by
  simp [belongsTo, and_comm]

/-- **How a reply is recorded.** -/
theorem Rsvp.run_record (c : EventCacheConfig) (orgId eventId participantId : String)
    (status : Rsvp) :
    (record c orgId eventId participantId status).run = (do
      match ← Work.request (.roster (.getParticipant participantId)) with
      | .error e => return .error e
      | .ok someone =>
        match someone.filter (·.belongsTo orgId eventId) with
        | none => return .error (.notFound "participant" participantId)
        | some participant =>
          match ← Work.request (.roster (.getEvent eventId)) with
          | .error e => return .error e
          | .ok event =>
            match ← Work.request (.roster (.updateParticipantStatus participant.id status)) with
            | .error e => return .error e
            | .ok _ =>
              let now ← Work.now
              let entry : Confirmation := ⟨orgId, eventId, participantId, status, now⟩
              let _ ← (entry.cache c (event.bind (·.endsAt))).run
              return .ok entry) := by
  -- one call after the other: both sides ask for the same and go on with the same answer
  refine congrArg (Work.request (.roster (.getParticipant participantId)) >>= ·)
    (funext fun someone => ?_)
  cases someone with
  | error e => rfl
  | ok someone =>
    show ExceptT.run (do
      let participant ← Job.found "participant" participantId
        (someone.filter (·.belongsTo orgId eventId))
      let event ← Job.roster (.getEvent eventId)
      Job.roster (.updateParticipantStatus participant.id status)
      let entry : Confirmation := ⟨orgId, eventId, participantId, status, ← Job.now⟩
      let _ ← ExceptT.lift (entry.cache c (event.bind (·.endsAt))).run
      return entry) = _
    dsimp only
    cases someone.filter (·.belongsTo orgId eventId) with
    | none => rfl
    | some participant =>
      refine congrArg (Work.request (.roster (.getEvent eventId)) >>= ·) (funext fun event => ?_)
      cases event with
      | error e => rfl
      | ok event =>
        refine congrArg
          (Work.request (.roster (.updateParticipantStatus participant.id status)) >>= ·)
          (funext fun answer => ?_)
        cases answer with
        | error e => rfl
        | ok _ =>
          show ExceptT.run (do
            let now ← ExceptT.lift Work.now
            let _ ← ExceptT.lift ((Confirmation.mk orgId eventId participantId status now).cache c
              (event.bind (·.endsAt))).run
            return Confirmation.mk orgId eventId participantId status now) = _
          simp only [ExceptT.run_bind_lift]
          rfl

end Gathering
