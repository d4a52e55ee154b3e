import Gathering.Proofs.Crew.Conduct
import Gathering.Proofs.FanOut.Pace

/-!
# Punctual crews

A crew is **punctual** if no time passes where there is nothing to wait for:
between asking for the time and extending a lease to a deadline that was reckoned
from it; between the extension and the sends; and when a send can be started. A
send under way is waited for until its time limit at most. When all have ended,
the sweeper may take its time.

Of such a crew it is known when each sweeper was told the time that it goes by,
and that its sends keep their pace (`Hand.Timed`). What follows is the reason for
the length of a lease (`Hand.Timed.elapsed_le_deadline`): as long as the sends
have not all ended, the deadline has not passed.

## Why a lease is long enough

A sweeper is told the time, reckons the deadline from it, extends the lease and
begins to send. In a punctual crew all of this is done at one and the same time.
From there on each round of sends takes the time limit at most, and there are no
more rounds than the batch has targets for the width (`Batch.rounds`). The lease was
extended by just that much and by the time of a claim besides. So when the last send
has ended the deadline is at least the time of a claim away, and where claims are
made for no time it may be reached but not passed.

Two things could come in between, and are kept out by `Happening.IsBounded`: a
deadline that was cut off at the end of the clock, and a batch with more rounds than
32 bits count, for which the rounds are reckoned too low.
-/

namespace Gathering

/-- The time that the sweeper was told and goes by. -/
def Standing.now? : Standing → Option Instant
  | .free | .holding _ _ => none
  | .ready now | .dated _ _ now | .covered _ now _ => some now

/-- How many rounds the sends of a batch take at most. -/
def Batch.rounds (batch : Batch) : Nat := (batch.targets.length + batch.width - 1) / batch.width

namespace Hand

/-- Whether a lease is to be extended or sends are to begin. -/
def isUrgent : Hand → Bool
  | .working (.ask (.fanOut _) _) => true
  | .working (.ask (.request (.tasks (.extendLease _ _ _))) _) => true
  | _ => false

/-- Whether the sends of a sweeper have all ended. -/
def isDone : Hand → Bool
  | .sending _ fan _ => fan.isOver
  | _ => false

/-- **Whether a sweeper waits until a time**: no send can be started and those under way last until
then, or it has nothing to do at once. -/
def Waits (clock : Nat) : Hand → Prop
  | .sending _ fan _ => fan.startable? = none ∧ ∀ f ∈ fan.flying, clock ≤ f.endsAt
  | hand => hand.isUrgent = false

/-- The sends of a batch keep their pace. -/
structure InTime (batch : Batch) (fan : Rehearsal.Sending) (begun clock : Nat) : Prop where
  /-- As many may be under way at a time as the batch says. -/
  width_eq : fan.width = batch.width
  /-- Each is cut off when the batch says. -/
  limit_eq : fan.limit = batch.limit.nanos
  /-- They keep the pace of their rounds. -/
  paced : FanOut.Paced begun batch.targets.length fan clock
  /-- The rounds can be counted, so the lease was reckoned from all of them. -/
  rounds_lt : batch.rounds < 1 <<< 32
  /-- The rounds are not over yet, or are over just now. -/
  clock_le : clock ≤ begun + batch.rounds * batch.limit.nanos

/-- **What is known of the time a sweeper goes by.** It was told so before; where something is
urgent, just now; and its sends were begun at that time, if they have not all ended. -/
structure Timed (wall : Instant) (clock : Nat) (hand : Hand) (st : Standing) : Prop where
  /-- What it was told was right at some time before. -/
  told : ∀ now, st.now? = some now → ∃ m, m ≤ clock ∧ now = wall.elapsed m
  /-- Where something is urgent, it was told the time just now. -/
  urgent : hand.isUrgent = true → ∀ now, st.now? = some now → now = wall.elapsed clock
  /-- Its sends were begun at the time that it was told, and keep their pace. -/
  inTime : ∀ batch fan next, hand = .sending batch fan next → fan.isOver = false →
    ∀ now, st.now? = some now → ∃ begun, now = wall.elapsed begun ∧ InTime batch fan begun clock

variable {s : Scheduler} {wall : Instant} {clock clock' begun : Nat} {hand hand' : Hand} {d : Deed}
  {st : Standing} {batch : Batch} {fan : Rehearsal.Sending}

/-! ## Sends -/

theorem InTime.start (h : InTime batch fan begun clock) {t : Participant} {ts : List Participant}
    (hstart : fan.startable? = some (t, ts)) (duration : Nat) :
    InTime batch (fan.start (fan.flight t clock duration) ts) begun clock :=
  ⟨h.width_eq, h.limit_eq, h.paced.start hstart duration, h.rounds_lt, h.clock_le⟩

theorem InTime.land (h : InTime batch fan begun clock) {before after : List (Flight Participant)}
    {f : Flight Participant} (hflying : fan.flying = before ++ f :: after)
    (result : Except Error Unit) :
    InTime batch (fan.land f (before ++ after) result) begun clock :=
  ⟨h.width_eq, h.limit_eq, h.paced.land hflying result, h.rounds_lt, h.clock_le⟩

theorem InTime.pass (h : InTime batch fan begun clock) (hover : fan.isOver = false)
    (hfull : fan.startable? = none) (hends : ∀ f ∈ fan.flying, clock' ≤ f.endsAt) :
    InTime batch fan begun clock' := by
  have hpaced := h.paced.pass hfull hends
  refine ⟨h.width_eq, h.limit_eq, hpaced, h.rounds_lt, ?_⟩
  unfold Batch.rounds
  rw [← h.width_eq, ← h.limit_eq]
  exact hpaced.clock_le_rounds (by rw [hover]; exact Bool.false_ne_true)

/-- Sends that have all ended are followed by nothing else than going on. -/
theorem Step.eq_of_isDone (h : Hand.Step s clock hand d hand') (hdone : hand.isDone = true) :
    d = .finishes ∨ d = .abandons := by
  cases h with
  | starts _ hstart =>
    have hover := FanOut.isOver_eq_false_of_startable hstart
    rw [isDone, hover] at hdone
    cases hdone
  | lands _ _ _ _ hflying =>
    have hover := FanOut.isOver_eq_false_of_flying hflying
    rw [isDone, hover] at hdone
    cases hdone
  | finishes _ => exact .inl rfl
  | abandons => exact .inr rfl
  | _ => cases hdone

/-! ## Steps

Only three steps say something new. Asking for the time makes what was told right now; sending
begins at a time that is right now, because it was urgent; and each send that starts or ends keeps
the pace of its rounds. Everything else leaves the time that the sweeper goes by where it was, or
goes by none. -/

/-- A sweeper for which something is urgent goes by a time. -/
theorem Obeys.of_urgent (h : hand.Obeys s st) (hurgent : hand.isUrgent = true) :
    (∃ t now, st = .dated t false now) ∨ ∃ t now deadline, st = .covered t now deadline := by
  unfold isUrgent at hurgent
  split at hurgent
  · cases h.1 with
    | fanOut _ _ => exact .inr ⟨_, _, _, rfl⟩
  · cases h.1 with
    | extendLease => exact .inl ⟨_, _, rfl⟩
  · cases hurgent

/-- **The time that a sweeper goes by after an answer** is the answer, if it was asked for, or the
time that it went by before, when it holds no task or was about to extend a lease. -/
theorem now?_after {r : Request} {answer : r.Answer} {st' : Standing} {now : Instant}
    (hturns : s.Turns st r answer st') (hnow : st'.now? = some now) :
    Deed.asks r answer = .asks .now now ∨
      (st.now? = some now ∧ (st'.isFree = true ∨
        ∃ id owner deadline, r = .tasks (.extendLease id owner deadline))) := by
  cases hturns with
  | told h now' =>
    left
    cases st with
    | covered _ _ _ => cases h
    | _ => cases hnow; rfl
  | cancelled h _ => exact .inr ⟨hnow, .inl h⟩
  | listed h _ => exact .inr ⟨hnow, .inl h⟩
  | unclaimed _ _ => exact .inr ⟨hnow, .inl rfl⟩
  | extended => exact .inr ⟨hnow, .inr ⟨_, _, _, rfl⟩⟩
  | _ => cases hnow

theorem Timed.of_none {rest : Work (Except Error SweepReport)} (h : st.now? = none) :
    Timed wall clock (working rest) st := by
  refine ⟨fun _ hnow => ?_, fun _ _ hnow => ?_, fun _ _ _ h _ => by cases h⟩
  · rw [h] at hnow
    cases hnow
  · rw [h] at hnow
    cases hnow

/-- **A step keeps what is known of the time**, if the time is told as it is and no batch takes too
many rounds to count them. -/
theorem Step.timed (h : Hand.Step s clock hand d hand') (hobeys : hand.Obeys s st)
    (ht : hand.Timed wall clock st) (htime : ∀ now, d = .asks .now now → now = wall.elapsed clock)
    (hrounds : ∀ batch, d = .launches batch → batch.rounds < 1 <<< 32) :
    hand'.Timed wall clock (st.turn d) := by
  have hobeys' := h.obeys hobeys
  cases h with
  | begins _ =>
    refine ⟨ht.told, fun hurgent => ?_, fun _ _ _ h => by cases h⟩
    rcases hobeys'.of_urgent hurgent with ⟨_, _, rfl⟩ | ⟨_, _, _, rfl⟩ <;> cases hobeys
  | ends _ => exact ⟨ht.told, (fun h => by cases h), fun _ _ _ h => by cases h⟩
  -- what the clock has told was told just now, or it is still what was told before
  | @asks r next answer =>
    refine ⟨fun now hnow => ?_, fun hurgent now hnow => ?_, fun _ _ _ h => by cases h⟩
    · rcases now?_after (hobeys.1.turns answer) hnow with h | ⟨h, _⟩
      · exact ⟨clock, Nat.le_refl _, htime now h⟩
      · exact ht.told now h
    · rcases now?_after (hobeys.1.turns answer) hnow with h | ⟨h, hfree | ⟨_, _, _, rfl⟩⟩
      · exact htime now h
      · change Standing.isFree (st.turn (.asks r answer)) = true at hfree
        rcases hobeys'.of_urgent hurgent with ⟨_, _, hst⟩ | ⟨_, _, _, hst⟩ <;>
          · rw [hst] at hfree
            cases hfree
      · exact ht.urgent rfl now h
  | @launches batch next =>
    refine ⟨ht.told, (fun h => by cases h), fun _ _ _ h _ now hnow => ?_⟩
    cases h
    refine ⟨clock, ht.urgent rfl now hnow, rfl, rfl, .begin ?_ rfl rfl, hrounds batch rfl,
      Nat.le_add_right _ _⟩
    cases hobeys.1 with
    | fanOut hwidth _ => exact hwidth
  | starts duration hstart =>
    refine ⟨ht.told, (fun h => by cases h), fun _ _ _ h _ now hnow => ?_⟩
    cases h
    obtain ⟨begun, hbegun, hin⟩ :=
      ht.inTime _ _ _ rfl (FanOut.isOver_eq_false_of_startable hstart) now hnow
    exact ⟨begun, hbegun, hin.start hstart duration⟩
  | lands before f after result hflying =>
    refine ⟨ht.told, (fun h => by cases h), fun _ _ _ h _ now hnow => ?_⟩
    cases h
    obtain ⟨begun, hbegun, hin⟩ :=
      ht.inTime _ _ _ rfl (FanOut.isOver_eq_false_of_flying hflying) now hnow
    exact ⟨begun, hbegun, hin.land hflying result⟩
  | finishes _ =>
    cases hobeys.1 with
    | fanOut _ _ => exact .of_none rfl
  | abandons =>
    cases hobeys.1 with
    | fanOut _ _ => exact .of_none rfl

/-- Time that passes while a sweeper waits keeps what is known of the time. -/
theorem Timed.pass (ht : hand.Timed wall clock st) (hwaits : hand.Waits clock')
    (hle : clock ≤ clock') : hand.Timed wall clock' st := by
  have htold : ∀ now, st.now? = some now → ∃ m, m ≤ clock' ∧ now = wall.elapsed m :=
    fun now hnow => by
      obtain ⟨m, hm, h⟩ := ht.told now hnow
      exact ⟨m, Nat.le_trans hm hle, h⟩
  cases hand with
  | idle => exact ⟨htold, (fun h => by cases h), fun _ _ _ h => by cases h⟩
  | working rest =>
    refine ⟨htold, fun hurgent => ?_, fun _ _ _ h => by cases h⟩
    rw [show (working rest).isUrgent = false from hwaits] at hurgent
    cases hurgent
  | sending batch fan next =>
    refine ⟨htold, (fun h => by cases h), fun _ _ _ h hover now hnow => ?_⟩
    cases h
    obtain ⟨hfull, hends⟩ := hwaits
    obtain ⟨begun, hbegun, hin⟩ := ht.inTime _ _ _ rfl hover now hnow
    exact ⟨begun, hbegun, hin.pass hover hfull hends⟩

end Hand

/-! ## Deadlines -/

/-- **How long a lease is extended**: by its rounds and the time of a claim, or by the longest
span. -/
theorem Scheduler.nanos_leaseBudget (c : SchedulerConfig) (n w : Nat) :
    (leaseBudget c n w).nanos =
      min (c.sendTimeout.nanos * rounds n w + c.claimLease.nanos)
        ((1 <<< 64) * 1000000000 - 1) := by
  show min (min (c.sendTimeout.nanos * rounds n w) _ + c.claimLease.nanos) _ = _
  omega

/-- A lease that is not cut off is extended by its rounds and the time of a claim. -/
theorem Scheduler.leaseBudget_nanos {c : SchedulerConfig} {n w : Nat}
    (h : (leaseBudget c n w).nanos ≤ Span.longestSigned) :
    (leaseBudget c n w).nanos = c.sendTimeout.nanos * rounds n w + c.claimLease.nanos := by
  rw [nanos_leaseBudget] at h ⊢
  unfold Span.longestSigned at h
  omega

theorem Batch.rounds_eq {batch : Batch} (h : batch.rounds < 1 <<< 32) :
    Scheduler.rounds batch.targets.length batch.width = batch.rounds := by
  unfold Batch.rounds at h ⊢
  unfold Scheduler.rounds
  omega

/-- **As long as its sends have not all ended, the deadline of a sweeper has not passed**, and it
has not been reached unless claims are made for no time.

The sends were begun when the sweeper was told the time, and they keep the pace of their rounds.
The deadline is that time and the budget of the lease, which is what the rounds take and the time
of a claim. The clock adds up what was not cut off, so the two can be compared as numbers of
nanoseconds. -/
theorem Hand.Timed.elapsed_le_deadline {s : Scheduler} {wall now deadline : Instant} {clock : Nat}
    {hand : Hand} {t : Task} (ht : hand.Timed wall clock (.covered t now deadline))
    (hobeys : hand.Obeys s (.covered t now deadline)) (hdone : hand.isDone = false)
    (hlast : deadline < Instant.last) :
    wall.elapsed clock ≤ deadline ∧
      (0 < s.config.claimLease.nanos → wall.elapsed clock < deadline) := by
  -- the deadline is what the clock will show when the budget is used up
  have key : ∀ begun n w, now = wall.elapsed begun →
      deadline = now.add (Scheduler.leaseBudget s.config n w) →
      clock ≤ begun + s.config.sendTimeout.nanos * Scheduler.rounds n w →
      wall.elapsed clock ≤ deadline ∧
        (0 < s.config.claimLease.nanos → wall.elapsed clock < deadline) := by
    intro begun n w hnow hdeadline hclock
    rw [hdeadline, hnow] at hlast
    have hbudget := Scheduler.leaseBudget_nanos
      (Instant.le_longestSigned_of_shift? (Instant.shift?_of_add_lt hlast))
    have hshown := wall.elapsed_add begun (Scheduler.leaseBudget s.config n w)
    rw [hdeadline, hnow]
    rw [hshown] at hlast ⊢
    refine ⟨Instant.elapsed_le_elapsed ?_ hlast, fun hlease => Instant.elapsed_lt_elapsed ?_ hlast⟩
    · omega
    · omega
  cases hand with
  -- a deadline is gone by only before the sends begin and while they last
  | idle => cases hobeys
  | working rest =>
    cases rest with
    | done _ => cases hobeys
    | ask e next =>
      cases hobeys.1 with
      | now h => cases h
      | isCancelled h => cases h
      | listDue h => cases h
      | @fanOut _ _ batch _ _ =>
        exact key clock batch.targets.length batch.width (ht.urgent rfl now rfl) rfl
          (Nat.le_add_right _ _)
  | sending batch fan next =>
    obtain ⟨begun, hbegun, hin⟩ := ht.inTime batch fan next rfl hdone now rfl
    cases hobeys.1 with
    | fanOut _ hlimit =>
      refine key begun batch.targets.length batch.width hbegun rfl ?_
      rw [Batch.rounds_eq hin.rounds_lt, ← hlimit, Nat.mul_comm]
      exact hin.clock_le

/-! ## Crews

What is known of one sweeper holds in a crew, as each of its sweepers is told the time as it is
and time passes only as all of them wait. -/

/-- **Whether a happening stays in bounds**: no lease is extended to the end of the clock, and no
batch takes more rounds than 32 bits count. -/
def Happening.IsBounded {ι : Type} : Happening ι → Prop
  | .by_ _ (.asks (.tasks (.extendLease _ _ deadline)) _) => deadline < Instant.last
  | .by_ _ (.launches batch) => batch.rounds < 1 <<< 32
  | _ => True

namespace Crew

variable {ι : Type} [DecidableEq ι] {S : Setting ι} {pace : Crew ι → Nat → Prop} {c c' : Crew ι}
  {e : Happening ι} {i : ι}

theorem Step.clock_le (h : Step S pace c e c') : c.clock ≤ c'.clock := by
  cases h with
  | by_ _ _ _ => exact Nat.le_refl _
  | called _ _ => exact Nat.le_refl _
  | passed _ _ => exact Nat.le_add_right _ _

/-- **Time passes in a punctual crew** only as long as every sweeper waits. -/
def Punctual (c : Crew ι) (nanos : Nat) : Prop := ∀ i, (c.hands i).Waits (c.clock + nanos)

theorem Step.clock_cases (h : Step S pace c e c') :
    c'.clock = c.clock ∨
      ∃ nanos, e = .passed nanos ∧ pace c nanos ∧ c'.clock = c.clock + nanos := by
  cases h with
  | by_ _ _ _ => exact .inl rfl
  | called _ _ => exact .inl rfl
  | passed nanos h => exact .inr ⟨nanos, rfl, h, rfl⟩

theorem Leaves.now {now answer : Instant} {tasks tasks' : TaskStore}
    (h : Leaves tasks now (.asks .now answer) tasks') : answer = now := by
  cases h with
  | answer h =>
    cases h with
    | now => rfl
    | elsewhere _ h => cases h
  | kept h => exact absurd rfl (h .now answer)

/-- **In a punctual crew the time that a sweeper goes by is known.** -/
theorem Step.timed (h : Step S Punctual c e c') (hbounded : e.IsBounded) {st : Standing}
    (hobeys : (c.hands i).Obeys (S.scheduler i) st) (ht : (c.hands i).Timed S.wall c.clock st) :
    (c'.hands i).Timed S.wall c'.clock (follow i st e) := by
  rcases h.hand_cases i with ⟨d, rfl, hstep, hleaves, hclock⟩ | ⟨hkept, _, hfollow⟩
  · rw [hclock, follow_by_self]
    refine hstep.timed hobeys ht (fun now hd => ?_) (fun batch hd => ?_)
    · subst hd
      exact hleaves.now
    · subst hd
      exact hbounded
  · rw [hkept, hfollow]
    rcases h.clock_cases with hclock | ⟨nanos, _, hpace, hclock⟩
    · rw [hclock]
      exact ht
    · rw [hclock]
      exact ht.pass (hpace i) (Nat.le_add_right _ _)

end Crew

end Gathering
