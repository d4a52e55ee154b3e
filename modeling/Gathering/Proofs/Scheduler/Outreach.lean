import Gathering.Proofs.Program.Trace
import Gathering.Scheduler.Outreach

/-!
# How an outreach goes

An outreach looks up the event and its participants, extends the lease, sends, and
reports. Here its program is written out (`Scheduler.run_reachOut`), with the errors
as values: which effect comes after which answer, and where the outreach ends. What
holds of all outreaches is read off from it.

The deeds of an outreach that is about to send are always the same four, and this is
shown in both directions: an outreach that gets these answers comes to its sends
(`path_to_fanOut`), and one that has come to its sends has got them
(`deeds_of_fanOut`).
-/

namespace Gathering

namespace Scheduler

/-- **The batch of an outreach** to those of a list whom it is addressed to. -/
def batchOf (s : Scheduler) (kind : Outreach) (event : Event) (listed : List Participant) :
    Batch where
  kind := kind
  event := event
  targets := kind.targets listed
  width := max s.config.fanoutConcurrency 1
  limit := s.config.sendTimeout

/-- **How an outreach goes.** -/
theorem run_reachOut (s : Scheduler) (task : Task) (kind : Outreach) :
    (s.reachOut task kind).run = (do
      match ← Work.request (.roster (.getEvent task.eventId)) with
      | .error e => return .error e
      | .ok none => return .error (.notFound "event" task.eventId)
      | .ok (some event) =>
        match ← Work.request (.roster (.listParticipants task.eventId)) with
        | .error e => return .error e
        | .ok listed =>
          if (kind.targets listed).isEmpty then return .ok ()
          else
            let now ← Work.now
            match ← Work.request (.tasks (.extendLease task.id s.id (now.add
                (leaseBudget s.config (kind.targets listed).length
                  (max s.config.fanoutConcurrency 1))))) with
            | .error e => return .error e
            | .ok false => return .error (.store ("lease on task " ++ task.id ++ " was lost"))
            | .ok true =>
              let results ← Program.call (Effect.fanOut (s.batchOf kind event listed))
              return outcomeOf kind (kind.targets listed).length results) := by
  unfold reachOut
  refine congrArg (Work.request (.roster (.getEvent task.eventId)) >>= ·) (funext fun answer => ?_)
  match answer with
  | .error e => rfl
  | .ok none => rfl
  | .ok (some event) =>
    refine congrArg (Work.request (.roster (.listParticipants task.eventId)) >>= ·)
      (funext fun answer => ?_)
    cases answer with
    | error e => rfl
    | ok listed =>
      simp only [ExceptT.bindCont]
      cases (kind.targets listed).isEmpty with
      | true => rfl
      | false =>
        refine congrArg (Work.now >>= ·) (funext fun now => ?_)
        refine congrArg (Work.request (.tasks (.extendLease task.id s.id _)) >>= ·)
          (funext fun answer => ?_)
        match answer with
        | .error e => rfl
        | .ok false => rfl
        | .ok true => rfl

/-- **An outreach comes to its sends** if the event is found, with somebody to send to, and the
lease is extended. -/
theorem path_to_fanOut (s : Scheduler) (task : Task) (kind : Outreach) (event : Event)
    (listed : List Participant) (now : Instant) (hsome : kind.targets listed ≠ []) :
    Work.Path (s.reachOut task kind).run
      [⟨.request (.roster (.getEvent task.eventId)), .ok (some event)⟩,
        ⟨.request (.roster (.listParticipants task.eventId)), .ok listed⟩,
        ⟨.request .now, now⟩,
        ⟨.request (.tasks (.extendLease task.id s.id
          (now.add (leaseBudget s.config (s.batchOf kind event listed).targets.length
            (s.batchOf kind event listed).width)))), .ok true⟩]
      (.ask (.fanOut (s.batchOf kind event listed)) fun results =>
        .done (outcomeOf kind (kind.targets listed).length results)) := by
  rw [run_reachOut]
  refine .ask (.ask ?_)
  show Work.Path (if (kind.targets listed).isEmpty = true then _ else _) _ _
  rw [if_neg (by simpa using hsome)]
  exact .ask (.ask (.nil _))

/-- **An outreach that is about to send** has found the event and somebody to send to, was told
the time, and has extended its lease from then on.

At each of its four questions every other answer ends the outreach, and the sends come after the
last. -/
theorem deeds_of_fanOut {s : Scheduler} {task : Task} {kind : Outreach} {deeds : List Answered}
    {batch : Batch} {next : List (Participant × Except Error Unit) → Work (Except Error Unit)}
    (path : Work.Path (s.reachOut task kind).run deeds (.ask (.fanOut batch) next)) :
    ∃ event listed now, kind.targets listed ≠ [] ∧ batch = s.batchOf kind event listed ∧
      deeds = [⟨.request (.roster (.getEvent task.eventId)), .ok (some event)⟩,
        ⟨.request (.roster (.listParticipants task.eventId)), .ok listed⟩,
        ⟨.request .now, now⟩,
        ⟨.request (.tasks (.extendLease task.id s.id
          (now.add (leaseBudget s.config batch.targets.length batch.width)))), .ok true⟩] := by
  rw [run_reachOut] at path
  obtain ⟨event?, rest, rfl, hfound⟩ := Work.path_call_ask path (by simp)
  clear path
  match event? with
  | .error e => exact absurd hfound Work.not_path_done_ask
  | .ok none => exact absurd hfound Work.not_path_done_ask
  | .ok (some event) =>
    obtain ⟨listed?, rest, rfl, hlisted⟩ := Work.path_call_ask hfound (by simp)
    clear hfound
    cases listed? with
    | error e => exact absurd hlisted Work.not_path_done_ask
    | ok listed =>
      dsimp only at hlisted
      split at hlisted
      · exact absurd hlisted Work.not_path_done_ask
      · next hsome =>
        obtain ⟨now, rest, rfl, htold⟩ := Work.path_call_ask hlisted (by simp)
        -- the sends are all that is left if the lease was extended, and else nothing is
        obtain ⟨extended?, rest, rfl, hextended⟩ := Work.path_call_ask htold (by simp)
        clear hlisted htold
        match extended? with
        | .error e => exact absurd hextended Work.not_path_done_ask
        | .ok false => exact absurd hextended Work.not_path_done_ask
        | .ok true =>
          cases hextended with
          | nil => exact ⟨event, listed, now, by simpa using hsome, rfl, rfl⟩
          | ask hsent => exact absurd hsent Work.not_path_done_ask

end Scheduler

end Gathering
