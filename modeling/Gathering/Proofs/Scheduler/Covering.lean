import Gathering.Proofs.Crew.Timing
import Gathering.Proofs.FanOut.Course
import Gathering.Proofs.Scheduler.Outreach

/-!
# A lease covers the sends that it was extended for

Before an outreach sends, its lease is extended: from the time that it was just told
by as many time limits as there are rounds, and by the time of a claim. The sends are
not made in rounds, but however long each of them takes, and in whatever order they
end, they are over by then (`FanOut.Course.clock_le`). So when the last one has ended
a whole claim is left of the lease (`Scheduler.lease_covers_sends`) – unless the
deadline lies beyond the end of the clock, where it stops.

Spans stop at the longest one, too, and the number of rounds at the greatest one of
32 bits. A span that was cut off reaches beyond the end of the clock anyway; of the
rounds it is assumed that they can be counted.

The length of the lease is a matter of arithmetic that saturates: spans are added
and multiplied with a greatest span, and the deadline is added with a last instant.
A deadline that is neither cut off at the end of the clock nor reckoned from too few
rounds is what it would be without any limits.
-/

namespace Gathering

namespace Scheduler

/-- **A deadline that is reckoned from a lease budget** leaves the time of a claim after every
time that the rounds last, unless it lies beyond the end of the clock.

If the budget was not cut off, the deadline is the time that was told and as many nanoseconds
later as the rounds and the claim take. If it was, it is the longest span, and so the deadline is
the last instant. -/
theorem add_leaseBudget_cases (now : Instant) (c : SchedulerConfig) (n w : Nat) :
    (∀ k ≤ c.sendTimeout.nanos * rounds n w,
        (now.elapsed k).add c.claimLease ≤ now.add (leaseBudget c n w)) ∨
      now.add (leaseBudget c n w) = .last ∧
        now.shift? (c.sendTimeout.nanos * rounds n w + c.claimLease.nanos : Nat) = none := by
  have hnanos := nanos_leaseBudget c n w
  cases hshift : now.shift? (c.sendTimeout.nanos * rounds n w + c.claimLease.nanos : Nat) with
  | some deadline =>
    -- within the clock no span is cut off
    have hlong := Instant.le_longestSigned_of_shift? hshift
    unfold Span.longestSigned at hlong
    have hadd : now.add (leaseBudget c n w) = deadline := by
      rw [Instant.add_eq_getD, hnanos, Nat.min_eq_left (by omega), hshift]
      rfl
    refine .inl fun k hk => ?_
    rw [hadd, Instant.elapsed_add]
    exact Instant.elapsed_le_of_shift? (Nat.add_le_add_right hk _) hshift
  | none =>
    refine .inr ⟨?_, rfl⟩
    have hnone : now.shift? (leaseBudget c n w).nanos = none := by
      rw [hnanos]
      rcases Nat.le_total (c.sendTimeout.nanos * rounds n w + c.claimLease.nanos)
        ((1 <<< 64) * 1000000000 - 1) with hle | hle
      · rw [Nat.min_eq_left hle]
        exact hshift
      · rw [Nat.min_eq_right hle]
        refine Option.eq_none_iff_forall_ne_some.mpr fun u hu => ?_
        have hlong := Instant.le_longestSigned_of_shift? hu
        unfold Span.longestSigned at hlong
        omega
    rw [Instant.add_eq_getD, hnone]
    rfl

end Scheduler

/-! ## Covered sends

What is said here of sends holds for every carrier: one that plays them in a rehearsal, or one
that runs them in any other way, as long as it cuts each of them off at its time limit. -/

/-- What comes of a send that is cut off. -/
abbrev lateSend : Except Error Unit := .error .timeout

/-- The sends of a rehearsal are late when they are cut off. -/
theorem Rehearsal.isBounded_carrierOf (batch : Batch) :
    (Rehearsal.carrierOf batch).IsBounded lateSend := by
  intro w f hcut
  simp only [Rehearsal.carrierOf, hcut, if_true]

/-- **A rehearsal keeps the sends of a batch on their course**, whenever it goes on with them and
has not been called off. -/
theorem Rehearsal.exists_course_sendOn {batch : Batch} {begun : Nat} {fan : Sending}
    {log : List (FanOut.Send Participant (Except Error Unit))} (w : World)
    (course : FanOut.Course lateSend (sendingOf batch) begun log w.clock fan) :
    ∃ log', FanOut.Course lateSend (sendingOf batch) begun log' w.clock
      (sendOn batch false fan w).1 :=
  course.runUntil rfl (isBounded_carrierOf batch) w

/-- **What a lease has to do with the sends that it was extended for**, at any time in their
course. -/
structure Batch.IsCovered (batch : Batch) (lease : Span) (now deadline : Instant) (begun : Nat)
    (log : List (FanOut.Send Participant (Except Error Unit))) (clock : Nat)
    (fan : Rehearsal.Sending) : Prop where
  /-- The sends are started in order. -/
  inOrder : log.map (·.flight.target) ++ fan.waiting = batch.targets
  /-- No more of them are under way than may be. -/
  width_le : fan.flying.length ≤ batch.width
  /-- They take no longer than the rounds. -/
  clock_le : clock ≤ begun + batch.rounds * batch.limit.nanos
  /-- Each ends when the rounds do, at the latest. -/
  endsAt_le : ∀ x ∈ log, x.flight.endsAt ≤ begun + batch.rounds * batch.limit.nanos
  /-- A claim later it is not yet past the deadline, or else the deadline lies beyond the end of the
  clock. -/
  covers : (∀ x ∈ log, (now.elapsed (x.flight.endsAt - begun)).add lease ≤ deadline) ∨
    deadline = .last ∧ now.shift? (batch.limit.nanos * batch.rounds + lease.nanos : Nat) = none

/-- **The lease covers the sends.** Whenever an outreach is about to send a batch that does not
take too many rounds to count them, it was told the time and has extended its lease to a deadline
which, however long the sends take, comes the time of a claim after the last of them. And the
sends do come to an end, whoever runs them.

What the outreach has done before is read off its program (`deeds_of_fanOut`). That the sends are
over when their rounds are is a fact about every course of sends (`FanOut.Course.clock_le`), and
that the deadline is later than that by a claim is the arithmetic above. -/
theorem Scheduler.lease_covers_sends {s : Scheduler} {task : Task} {kind : Outreach}
    {deeds : List Answered} {batch : Batch}
    {next : List (Participant × Except Error Unit) → Work (Except Error Unit)}
    (path : Work.Path (s.reachOut task kind).run deeds (.ask (.fanOut batch) next))
    (hrounds : batch.rounds < 1 <<< 32) :
    ∃ now deadline,
      [⟨.request .now, now⟩, ⟨.request (.tasks (.extendLease task.id s.id deadline)), .ok true⟩] <:+
        deeds ∧
      (batch.width = max s.config.fanoutConcurrency 1 ∧ batch.limit = s.config.sendTimeout) ∧
      (∀ begun log clock fan,
        FanOut.Course lateSend (Rehearsal.sendingOf batch) begun log clock fan →
          batch.IsCovered s.config.claimLease now deadline begun log clock fan) ∧
      ∀ (σ : Type) (carrier : FanOut.Carrier Participant (Except Error Unit) σ) (st : σ)
        (begun : Nat), carrier.IsBounded lateSend →
          ∃ log, FanOut.Course lateSend (Rehearsal.sendingOf batch) begun log
              ((Rehearsal.sendingOf batch).run carrier begun st).1
              ((Rehearsal.sendingOf batch).run carrier begun st).2.1 ∧
            ((Rehearsal.sendingOf batch).run carrier begun st).2.1.isOver = true := by
  obtain ⟨event, listed, now, -, rfl, rfl⟩ := deeds_of_fanOut path
  have hwidth : 0 < (Rehearsal.sendingOf (s.batchOf kind event listed)).width :=
    Nat.lt_of_lt_of_le Nat.zero_lt_one (Nat.le_max_right _ 1)
  refine ⟨now, _, ⟨[_, _], rfl⟩, ⟨rfl, rfl⟩, fun begun log clock fan course => ?_,
    fun σ carrier st begun hcarrier => FanOut.Course.begin.run rfl hwidth hcarrier st⟩
  have hends := course.endsAt_le rfl hwidth
  refine ⟨course.targets_eq, course.length_flying_le rfl, course.clock_le rfl hwidth, hends, ?_⟩
  have hcases := add_leaseBudget_cases now s.config
    (s.batchOf kind event listed).targets.length (s.batchOf kind event listed).width
  rw [Batch.rounds_eq hrounds] at hcases
  refine hcases.imp_left fun hcovers x hx => hcovers _ ?_
  have hend : x.flight.endsAt ≤ begun + (s.batchOf kind event listed).rounds *
    s.config.sendTimeout.nanos := hends x hx
  rw [Nat.mul_comm]
  omega

/-- Three guests who have not replied. -/
def threeGuests : List Participant := ["a", "b", "c"].map (⟨·, "e", "o", "", "", .pending⟩)

/-- **Three sends, two at a time**, take two rounds. They are covered in every rehearsal, too, from
the moment when it first goes on with them, and a rehearsal that runs them comes to their end. -/
theorem Scheduler.lease_covers_sends_of_three :
    ∃ (deeds : List Answered) (batch : Batch)
      (next : List (Participant × Except Error Unit) → Work (Except Error Unit)),
      Work.Path (reachOut ⟨"s", { fanoutConcurrency := 2 }⟩ default .confirmation).run deeds
        (.ask (.fanOut batch) next) ∧
      batch.targets = threeGuests ∧ batch.rounds = 2 ∧
      ∃ now deadline, [⟨.request .now, now⟩,
          ⟨.request (.tasks (.extendLease (default : Task).id "s" deadline)), .ok true⟩] <:+ deeds ∧
        (∀ begun log clock fan,
          FanOut.Course lateSend (Rehearsal.sendingOf batch) begun log clock fan →
            batch.IsCovered (.ofSeconds (5 * 60)) now deadline begun log clock fan) ∧
        ∀ w : Rehearsal.World,
          (∃ log, batch.IsCovered (.ofSeconds (5 * 60)) now deadline w.clock log w.clock
            (Rehearsal.sendOn batch false (Rehearsal.sendingOf batch) w).1) ∧
          ((Rehearsal.sendingOf batch).run (Rehearsal.carrierOf batch) w.clock w).2.1.isOver =
            true := by
  have path := path_to_fanOut ⟨"s", { fanoutConcurrency := 2 }⟩ default .confirmation
    ⟨"e", "o", "", .scheduled, .epoch, none, none⟩ threeGuests .epoch (by decide)
  obtain ⟨now, deadline, hdeeds, -, hcovered, hends⟩ := lease_covers_sends path (by decide)
  refine ⟨_, _, _, path, rfl, rfl, now, deadline, hdeeds, hcovered, fun w => ⟨?_, ?_⟩⟩
  · obtain ⟨log, course⟩ := Rehearsal.exists_course_sendOn w .begin
    exact ⟨log, hcovered _ _ _ _ course⟩
  · obtain ⟨_, -, hover⟩ := hends _ _ w w.clock (Rehearsal.isBounded_carrierOf _)
    exact hover

end Gathering
