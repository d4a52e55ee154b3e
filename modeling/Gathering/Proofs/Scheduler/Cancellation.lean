import Gathering.Proofs.Scheduler.Accounting
import Gathering.Proofs.Scheduler.Cancelling
import Gathering.Proofs.Scheduler.Standing

/-!
# Cancellation wins

Schedulers share a store of tasks, and a task can be cancelled at any time: before it
is claimed, after that, while its sends are under way, or when all that is left to do
is to settle it. The sweep that has it in hand is not told. It finds out by itself,
from the next answer that it gets about the task, because the store refuses whatever
is asked of a task at rest (`TaskStore.respond_of_final`).

So nothing that comes after a cancellation undoes it or counts for anything
(`Scheduler.Stands`). An outreach has one more thing to find out before its first
send, and that is what the extension of the lease is for: by the conduct of a sweeper
there are no sends without one (`Scheduler.Conduct.extended`), and there is none after
the cancellation.

Sends do not touch the store. In a log they stand where the first of them is started,
so whatever comes after them in the log may have happened while they were under way.
-/

namespace Gathering

open TaskStore (shared IsFiled)

/-! ## What deeds are about

A turn is looked at through what was asked and answered in it. Where the task is at rest, the
answer is always a refusal; where it was marked as skipped, it was pending before. -/

namespace Answered

/-- The task that was claimed, if the claim was granted. -/
def claimed? : Answered → Option String
  | ⟨.request (.tasks (.claim id _ _ _)), .ok (some _)⟩ => some id
  | _ => none

/-- The task whose lease was extended. -/
def extended? : Answered → Option String
  | ⟨.request (.tasks (.extendLease id _ _)), .ok true⟩ => some id
  | _ => none

theorem eq_of_claimed? {d : Answered} {id : String} (h : d.claimed? = some id) :
    ∃ owner deadline now t,
      d = ⟨.request (.tasks (.claim id owner deadline now)), .ok (some t)⟩ := by
  unfold claimed? at h
  split at h
  · cases h
    exact ⟨_, _, _, _, rfl⟩
  · cases h

theorem eq_of_extended? {d : Answered} {id : String} (h : d.extended? = some id) :
    ∃ owner deadline, d = ⟨.request (.tasks (.extendLease id owner deadline)), .ok true⟩ := by
  unfold extended? at h
  split at h
  · cases h
    exact ⟨_, _, rfl⟩
  · cases h

end Answered

namespace Turn

variable {turn : Turn TaskStore} {id : String} {t : Task}

/-- A call that is answered where calls do not fail, about a task at rest, is refused. -/
theorem refused_of_deed {call : TaskStore.Call} {answer : Except Error call.Answer}
    {refusal : call.Answer}
    (h : TaskStore.Answers False turn.before turn.effect turn.answer turn.after)
    (hdeed : turn.deed = ⟨.request (.tasks call), answer⟩) (hcall : call.refusal? = some refusal)
    (hsubject : call.subject? = some id) (hfind : turn.before.find? id = some t)
    (hfinal : t.status ≠ .pending) : answer = .ok refusal := by
  obtain ⟨st, effect, answer', st'⟩ := turn
  cases hdeed
  exact TaskStore.Answers.refused h hcall hsubject hfind hfinal

/-- **A task that was cancelled in a turn** was pending, and is skipped. -/
theorem skipped_of_deed {at_ : Instant}
    (h : TaskStore.Answers False turn.before turn.effect turn.answer turn.after)
    (hdeed : turn.deed = ⟨.request (.tasks (.markSkipped id at_)), .ok true⟩) :
    ∃ t, turn.before.find? id = some t ∧ t.status = .pending ∧
      turn.after.find? id = some (t.finish .skipped none at_) := by
  obtain ⟨st, effect, answer, st'⟩ := turn
  cases hdeed
  exact TaskStore.Answers.of_skipped h

/-- **A task at rest is not claimed.** -/
theorem claim_of_final {answer : Except Error (Option Task)}
    (h : TaskStore.Answers False turn.before turn.effect turn.answer turn.after)
    (hmark : turn.mark? = some (.claim id answer)) (hfind : turn.before.find? id = some t)
    (hfinal : t.status ≠ .pending) : answer = .ok none := by
  unfold mark? at hmark
  split at hmark <;> cases hmark
  exact refused_of_deed h rfl rfl rfl hfind hfinal

/-- **A task at rest is not settled**: whoever tries has lost it. -/
theorem settle_of_final {answer : Except Error Settlement}
    (h : TaskStore.Answers False turn.before turn.effect turn.answer turn.after)
    (hmark : turn.mark? = some (.settle id answer)) (hfind : turn.before.find? id = some t)
    (hfinal : t.status ≠ .pending) : answer = .ok .lost := by
  unfold mark? at hmark
  -- whichever call it was, the mark is what is made of its answer
  split at hmark <;> cases hmark
  all_goals exact congrArg (Except.map _) (refused_of_deed h rfl rfl rfl hfind hfinal)

/-- **The lease of a task at rest is not extended.** -/
theorem extended?_of_final
    (h : TaskStore.Answers False turn.before turn.effect turn.answer turn.after)
    (hfind : turn.before.find? id = some t) (hfinal : t.status ≠ .pending) :
    turn.deed.extended? ≠ some id := by
  intro hextended
  obtain ⟨owner, deadline, hdeed⟩ := Answered.eq_of_extended? hextended
  cases refused_of_deed h hdeed rfl rfl hfind hfinal

theorem mark?_of_claimed? (h : turn.deed.claimed? = some id) :
    ∃ t, turn.mark? = some (.claim id (.ok (some t))) := by
  obtain ⟨owner, deadline, now, t, hdeed⟩ := Answered.eq_of_claimed? h
  obtain ⟨st, effect, answer, st'⟩ := turn
  cases hdeed
  exact ⟨t, rfl⟩

theorem id_of_claimed {owner : String} {deadline now : Instant} (hfiled : IsFiled turn.before)
    (h : TaskStore.Answers False turn.before turn.effect turn.answer turn.after)
    (hdeed : turn.deed = ⟨.request (.tasks (.claim id owner deadline now)), .ok (some t)⟩) :
    t.id = id := by
  obtain ⟨st, effect, answer, st'⟩ := turn
  cases hdeed
  exact Scheduler.id_of_claimed hfiled h

end Turn

/-! ## Sends need an extension

Here nothing is said of the store. A sweeper that has claimed a task holds it without cover, and
stays so with every answer except that of a new claim or of an extension (`Turns.isBare`). As
sends need cover, one of the two has come in between. -/

/-- Whether an effect sends messages. -/
def Effect.sends : Effect → Bool
  | .fanOut _ | .request (.send _) => true
  | _ => false

/-- **The sweeper cannot send yet**: it holds no task but one, and that one's lease was not extended
for its sends. -/
structure Standing.IsBare (t : Task) (st : Standing) : Prop where
  /-- Its lease does not cover sends. -/
  uncovered : st.isCovered = false
  /-- It holds no other task. -/
  task : ∀ u, st.task? = some u → u = t

namespace Scheduler

variable {α : Type} {s : Scheduler} {ends : α → Standing → Prop} {st st' : Standing} {p : Work α}
  {t : Task}

/-- An answer that is neither a claim nor an extension of the lease leaves the sweeper so. -/
theorem Turns.isBare {r : Request} {answer : r.Answer} (h : s.Turns st r answer st')
    (hbare : st.IsBare t) (hclaim : Answered.claimed? ⟨.request r, answer⟩ = none)
    (hextended : Answered.extended? ⟨.request r, answer⟩ ≠ some t.id) : st'.IsBare t := by
  cases h with
  | told _ _ =>
    cases st with
    | free | ready _ => exact ⟨rfl, fun _ h => by cases h⟩
    | holding _ _ | dated _ _ _ => exact ⟨rfl, hbare.task⟩
    | covered _ _ _ => cases hbare.uncovered
  | cancelled _ _ => exact hbare
  | listed _ _ => exact hbare
  | claimed _ => cases hclaim
  | unclaimed _ _ => exact ⟨rfl, fun _ h => by cases h⟩
  | looked _ => exact ⟨rfl, hbare.task⟩
  | extended =>
    obtain rfl := hbare.task _ rfl
    exact absurd rfl hextended
  | refused _ _ => exact ⟨rfl, hbare.task⟩
  | processed _ => exact ⟨rfl, fun _ h => by cases h⟩
  | retried _ _ => exact ⟨rfl, fun _ h => by cases h⟩
  | failed _ => exact ⟨rfl, fun _ h => by cases h⟩

/-- **A sweeper that has claimed a task extends its lease before it sends**, if it does not go on to
another task. -/
theorem Conduct.extended {deeds : List Answered} {e : Effect} {next : e.Answer → Work α}
    (hobeys : p.Obeys s.conduct ends st) (hbare : st.IsBare t)
    (path : p.Path deeds (.ask e next)) (hsends : e.sends = true)
    (hclaims : ∀ d ∈ deeds, d.claimed? = none) : ∃ d ∈ deeds, d.extended? = some t.id := by
  induction deeds generalizing p st with
  | nil =>
    cases path
    cases hobeys.1 with
    | fanOut _ _ => cases hbare.uncovered
    | _ => cases hsends
  | cons d deeds ih =>
    obtain ⟨hclaim, hlater⟩ := List.forall_mem_cons.mp hclaims
    by_cases hd : d.extended? = some t.id
    · exact ⟨d, List.mem_cons_self, hd⟩
    · cases path with
      | @ask e answer _ _ _ path =>
        obtain ⟨hallows, hnext⟩ := hobeys
        have hstays : (st.after e answer).IsBare t := by
          cases e with
          | request r => exact (hallows.turns answer).isBare hbare hclaim hd
          | fanOut _ =>
            cases hallows
            cases hbare.uncovered
          | startSweeper _ _ => cases hallows
          | stopSweeper _ _ => cases hallows
        obtain ⟨d', hd', hextended⟩ := ih (hnext answer) hstays path hlater
        exact ⟨d', List.mem_cons_of_mem _ hd', hextended⟩

/-! ## Reports count marks -/

/-- **The report of a sweep counts its marks.** -/
theorem report_eq_ofMarks {σ : Type} {W : Surroundings σ} {st st' : σ} {turns : List (Turn σ)}
    {limit : Nat} {report : SweepReport}
    (run : Work.Runs W st (s.sweep limit).run turns (.ok report) st') :
    report = .ofMarks report.due (turns.filterMap Turn.mark?) := by
  rw [sweep_eq, Work.runs_map_iff] at run
  obtain ⟨told, hreport, run⟩ := run
  cases runs_chronicle run with
  | failed _ _ _ _ => cases hreport
  | visited _ _ _ _ visits =>
    obtain ⟨hmarks, hlength⟩ := visits_marks visits
    obtain rfl := Except.ok.inj hreport
    rw [SweepReport.tally_eq_ofMarks hlength, ← hmarks]
    rfl

/-! ## What is asked of schedulers

Programs of a log are told apart by their numbers, and each is asked for one thing. A log says
which program made which turn, so that it can be said of a sweep and of a cancellation what each
has done itself. -/

/-- **What is asked of a scheduler.** -/
inductive Errand where
  /-- To make a task. -/
  | create (s : Scheduler) (draft : TaskDraft)
  /-- To make the tasks of an event. -/
  | scheduleEvent (s : Scheduler) (e : Event)
  /-- To cancel a task. -/
  | cancel (id : String)
  /-- To cancel the tasks of an event. -/
  | cancelEvent (eventId : String)
  /-- To take on the tasks that are due. -/
  | sweep (s : Scheduler) (limit : Nat)

/-- The program that does what is asked. -/
def Errand.program : Errand → Work Unit
  | .create s draft => (fun _ => ()) <$> (s.create draft).run
  | .scheduleEvent s e => (fun _ => ()) <$> (s.scheduleEvent e).run
  | .cancel id => (fun _ => ()) <$> (Scheduler.cancel id).run
  | .cancelEvent eventId => (fun _ => ()) <$> (Scheduler.cancelEvent eventId).run
  | .sweep s limit => (fun _ => ()) <$> (s.sweep limit).run

/-- **A log of schedulers that share a store**, whose calls do not fail. Each program is known by
its number, and does what is asked of it. -/
abbrev Log (who : Nat → Errand) (start : TaskStore) :
    List (Move TaskStore) → Pool TaskStore → Prop :=
  Pool.Log (shared False fun _ => False) (fun n p => p = (who n).program) start

/-- **A program of a log has ended with a result.** -/
def Ended (moves : List (Move TaskStore)) (n : Nat) (j : Job α) (result : Except Error α) : Prop :=
  Work.Path j.run ((Move.own n moves).map (·.deed)) (.done result)

variable {who : Nat → Errand} {start : TaskStore} {moves : List (Move TaskStore)}
  {pool : Pool TaskStore} {n : Nat}

theorem Log.exists_ended (log : Log who start moves pool) {j : Job α}
    (hwho : (who n).program = (fun _ => ()) <$> j.run)
    (hdone : pool.programs[n]? = some (.done ())) : ∃ result, Ended moves n j result := by
  obtain ⟨p, rfl, path⟩ := log.run.path hdone
  rw [hwho] at path
  obtain ⟨result, _, path⟩ := Work.path_map_iff.mp path
  exact ⟨result, by rwa [Ended, Move.map_deed_own]⟩

theorem Errand.sweep_obeys (s : Scheduler) (limit : Nat) :
    (Errand.sweep s limit).program.Obeys s.conduct (fun _ => HoldsNone) .free := by
  show Work.Obeys _ _ ((fun _ => ()) <$> (s.sweep limit).run) _
  rw [← bind_pure_comp]
  exact .bind (s.sweep_obeys limit rfl) fun _ _ h => h

/-- **Between its claim of a task and its sends a sweep extends the lease**, if it does not go on to
another task. -/
theorem Log.extended_of_sends {early rest last : List (Move TaskStore)} {claim m : Move TaskStore}
    {id : String} {limit : Nat} (hfiled : IsFiled start)
    (log : Log who start (early ++ claim :: rest ++ m :: last) pool)
    (hwho : who n = .sweep s limit) (hclaimer : claim.number = n)
    (hclaimed : claim.turn.deed.claimed? = some id)
    (hrest : ∀ m' ∈ rest, m'.number = n → m'.turn.deed.claimed? = none) (hsender : m.number = n)
    (hsends : m.turn.effect.sends = true) :
    ∃ m' ∈ rest, m'.number = n ∧ m'.turn.deed.extended? = some id := by
  obtain ⟨owner, deadline, now, claimed, hclaim⟩ := Answered.eq_of_claimed? hclaimed
  have hid : claimed.id = id := by
    have hmem : claim ∈ early ++ claim :: rest ++ m :: last := by simp
    exact Turn.id_of_claimed (hfiled.drifts (log.drifting.before claim hmem))
      (log.answered claim hmem) hclaim
  -- what the sweep has done until then leads from its program to the sends
  obtain ⟨pool', next, log', hprogram⟩ := log.split
  rw [hsender] at hprogram
  obtain ⟨_, rfl, path⟩ := log'.run.path hprogram
  rw [← Move.map_deed_own, Move.own_append, Move.own_cons_of_eq hclaimer, List.map_append,
    List.map_cons, hclaim, hwho] at path
  obtain ⟨q, hearly, hlast⟩ := Work.path_append_iff.mp path
  obtain ⟨standing, hobeys⟩ := (Errand.sweep_obeys s limit).path hearly
  have hnone : ∀ d ∈ (Move.own n rest).map (·.deed), d.claimed? = none :=
    List.forall_mem_map.mpr fun turn hturn => hrest ⟨n, turn⟩ (Move.mem_own_iff.mp hturn) rfl
  cases hlast with
  | ask hlast =>
    have hholding : Work.Obeys s.conduct (fun _ => HoldsNone) _ (.holding claimed false) :=
      hobeys.2 (.ok (some claimed))
    have hbare : Standing.IsBare claimed (.holding claimed false) :=
      ⟨rfl, fun u hu => (Option.some_inj.mp hu).symm⟩
    obtain ⟨d, hd, hextended⟩ := Conduct.extended hholding hbare hlast hsends hnone
    obtain ⟨turn, hturn, rfl⟩ := List.mem_map.mp hd
    exact ⟨⟨n, turn⟩, Move.mem_own_iff.mp hturn, rfl, hid ▸ hextended⟩

/-! ## After a cancellation

A record in a final status is never written again, so it is found as it was left in every later
turn, whoever makes it. Everything else about the task follows from what the store says to a task
at rest. -/

/-- **A cancelled task stays cancelled** from the turn on in which it was: its record stays, and so
nothing else becomes of it. -/
structure Stands (id : String) (skip : Turn TaskStore) (after : List (Move TaskStore))
    (st : TaskStore) (t : Task) : Prop where
  /-- It is skipped. -/
  status : t.status = .skipped
  /-- Nobody holds it. -/
  unclaimed : t.claimedBy = none ∧ t.claimedUntil = none
  /-- This is how it is left. -/
  left : skip.after.find? id = some t
  /-- Whatever comes later finds it so and leaves it so. -/
  later : ∀ m ∈ after, m.turn.before.find? id = some t ∧ m.turn.after.find? id = some t
  /-- It still is so. -/
  still : st.find? id = some t
  /-- No claim of it is granted. -/
  claims : ∀ m ∈ after, ∀ answer, m.turn.mark? = some (.claim id answer) → answer = .ok none
  /-- It does not get a longer lease. -/
  extensions : ∀ m ∈ after, m.turn.deed.extended? ≠ some id
  /-- No settlement of it counts. -/
  settlements : ∀ m ∈ after, ∀ answer, m.turn.mark? = some (.settle id answer) → answer = .ok .lost

/-- **A cancellation stands.**

The log is cut after the turn in which the task was marked. From there on no turn changes the
record, by induction on the moves, and so every claim, extension and settlement of the task is
refused. -/
theorem stands_of_skipped {before after : List (Move TaskStore)} {skip : Move TaskStore}
    {id : String} {at_ : Instant} (log : Log who start (before ++ skip :: after) pool)
    (hskip : skip.turn.deed = ⟨.request (.tasks (.markSkipped id at_)), .ok true⟩) :
    ∃ t, Stands id skip.turn after pool.state t := by
  have hanswered := log.answered
  have hdrifting := log.drifting
  have hmem : skip ∈ before ++ skip :: after := List.mem_append_right _ List.mem_cons_self
  obtain ⟨t, _, _, hleft⟩ := Turn.skipped_of_deed (hanswered skip hmem) hskip
  have hfinal : (t.finish .skipped none at_).status ≠ .pending := nofun
  -- the task is final when the mark is made, and stays as it is for all that come later
  have hlater : ∀ m ∈ after, m.turn.before.find? id = some (t.finish .skipped none at_) := by
    have hpairwise := (List.pairwise_append.mp hdrifting.between).2.1
    exact fun m hm =>
      TaskStore.find?_of_final ((List.pairwise_cons.mp hpairwise).1 m hm) hleft hfinal
  have hanswers : ∀ m ∈ after, (shared False fun _ => False).answers
      m.turn.before m.turn.effect m.turn.answer m.turn.after :=
    fun m hm => hanswered m (List.mem_append_right _ (List.mem_cons_of_mem _ hm))
  exact
    ⟨t.finish .skipped none at_,
      { status := rfl
        unclaimed := ⟨rfl, rfl⟩
        left := hleft
        later := fun m hm => ⟨hlater m hm, TaskStore.find?_of_final
          (Surroundings.drifts_of_answers (hanswers m hm)) (hlater m hm) hfinal⟩
        still := TaskStore.find?_of_final (hdrifting.after skip hmem) hleft hfinal
        claims := fun m hm _ hmark => Turn.claim_of_final (hanswers m hm) hmark (hlater m hm) hfinal
        extensions := fun m hm => Turn.extended?_of_final (hanswers m hm) (hlater m hm) hfinal
        settlements := fun m hm _ hmark =>
          Turn.settle_of_final (hanswers m hm) hmark (hlater m hm) hfinal }⟩

/-- **A program has claimed a task and has not extended its lease yet**, nor gone on to another
task. -/
def YetToExtend (id : String) (n : Nat) (moves : List (Move TaskStore)) : Prop :=
  ∃ early claim rest, moves = early ++ claim :: rest ∧ claim.number = n ∧
    claim.turn.deed.claimed? = some id ∧
    ∀ m ∈ rest, m.number = n → m.turn.deed.claimed? = none ∧ m.turn.deed.extended? ≠ some id

/-- **A sweep that has claimed a task and not yet extended its lease when the task is cancelled
does not send** until it has gone on to another task.

If it went on to no other task it would have extended the lease before it sends
(`Log.extended_of_sends`). It had not done so before the cancellation, and after it no extension
is granted. -/
theorem claimed_of_sends {before later last : List (Move TaskStore)} {skip m : Move TaskStore}
    {id : String} {at_ : Instant} {limit : Nat} (hfiled : IsFiled start)
    (log : Log who start (before ++ skip :: (later ++ m :: last)) pool)
    (hskip : skip.turn.deed = ⟨.request (.tasks (.markSkipped id at_)), .ok true⟩)
    (hwho : who n = .sweep s limit) (hyet : YetToExtend id n before) (hsender : m.number = n)
    (hsends : m.turn.effect.sends = true) :
    ∃ m' ∈ later, m'.number = n ∧ ∃ x, x ≠ id ∧ m'.turn.deed.claimed? = some x := by
  obtain ⟨t, hstands⟩ := stands_of_skipped log hskip
  have hlater {m' : Move TaskStore} (hm' : m' ∈ later) : m' ∈ later ++ m :: last :=
    List.mem_append_left _ hm'
  obtain ⟨early, claim, rest, rfl, hclaimer, hclaimed, hrest⟩ := hyet
  by_cases hnext : ∃ m' ∈ later, m'.number = n ∧ ∃ x, m'.turn.deed.claimed? = some x
  · obtain ⟨m', hm', hnumber', x, hx⟩ := hnext
    refine ⟨m', hm', hnumber', x, ?_, hx⟩
    rintro rfl
    obtain ⟨_, hmark⟩ := Turn.mark?_of_claimed? hx
    cases hstands.claims m' (hlater hm') _ hmark
  · -- else it would have extended the lease: before the task was cancelled, or after that
    exfalso
    have hnone : ∀ m' ∈ rest ++ skip :: later, m'.number = n →
        m'.turn.deed.claimed? = none ∧ m'.turn.deed.extended? ≠ some id := by
      refine List.forall_mem_append.mpr ⟨hrest, List.forall_mem_cons.mpr ⟨fun _ => ?_, ?_⟩⟩
      · rw [hskip]
        exact ⟨rfl, nofun⟩
      · exact fun m' hm' hnumber' =>
          ⟨Option.eq_none_iff_forall_ne_some.mpr fun x hx => hnext ⟨m', hm', hnumber', x, hx⟩,
            hstands.extensions m' (hlater hm')⟩
    have hsplit : early ++ claim :: rest ++ skip :: (later ++ m :: last) =
        early ++ claim :: (rest ++ skip :: later) ++ m :: last := by
      simp
    rw [hsplit] at log
    obtain ⟨m', hm', hnumber', hextended⟩ := log.extended_of_sends hfiled hwho hclaimer hclaimed
      (fun m' hm' hnumber' => (hnone m' hm' hnumber').1) hsender hsends
    exact (hnone m' hm' hnumber').2 hextended

/-- **Cancellation wins.** Schedulers share a store of tasks and are asked for anything, in any
order and at any time.

Every cancellation of a task that has ended has come to one of its ends, and every cancellation of
the tasks of an event has counted the tasks that it has marked. From the turn on in which a task
was marked, by either, the cancellation stands: what sweeps report counts their marks, and those
about the task do not count. A sweep that has claimed it and not yet extended its lease does not
send until it has gone on to another task. And from any state that schedulers have come to, the
tasks of an event can be cancelled undisturbed, and then none of them is left pending.

The parts are about one program each, with the others as its surroundings, except the fourth. That
one is about the store after a turn of the log, and there it does not matter whose turn comes
next. -/
theorem cancellation_wins (hfiled : IsFiled start) (log : Log who start moves pool) :
    (∀ n id, who n = .cancel id → pool.programs[n]? = some (.done ()) →
      ∃ result, Ended moves n (cancel id) result ∧
        Cancellation id (Move.own n moves) result) ∧
    (∀ n eventId, who n = .cancelEvent eventId → pool.programs[n]? = some (.done ()) →
      Ended moves n (cancelEvent eventId) (.ok ((Move.own n moves).countP Turn.isSkip))) ∧
    (∀ n s limit, who n = .sweep s limit → pool.programs[n]? = some (.done ()) →
      ∃ result, Ended moves n (s.sweep limit) result ∧ ∀ report, result = .ok report →
        report = .ofMarks report.due ((Move.own n moves).filterMap Turn.mark?)) ∧
    (∀ before skip after id at_, moves = before ++ skip :: after →
      skip.turn.deed = ⟨.request (.tasks (.markSkipped id at_)), .ok true⟩ →
        (∃ t, Stands id skip.turn after pool.state t) ∧
        ∀ n s limit, who n = .sweep s limit → YetToExtend id n before →
          ∀ later m last, after = later ++ m :: last → m.number = n →
            m.turn.effect.sends = true →
              ∃ m' ∈ later, m'.number = n ∧ ∃ x, x ≠ id ∧ m'.turn.deed.claimed? = some x) ∧
    ∀ eventId,
      (∃ result s', Work.Reaches (shared False fun _ => False) pool.state
        (cancelEvent eventId).run result s') ∧
      ∀ turns result s', Work.Runs (shared False fun _ => False) pool.state
        (cancelEvent eventId).run turns result s' →
          EventCancellation eventId pool.state result s' := by
  refine ⟨fun n id hwho hdone => ?_, fun n eventId hwho hdone => ?_, fun n s limit hwho hdone => ?_,
    fun before skip after id at_ hmoves hskip => ⟨?_, ?_⟩, fun eventId => ⟨?_, ?_⟩⟩
  · obtain ⟨result, hended⟩ := log.exists_ended (j := cancel id) (by rw [hwho]; rfl) hdone
    obtain ⟨_, run⟩ := Pool.Log.runs log hended
    exact ⟨result, hended, cancellation_of_runs run⟩
  · obtain ⟨result, hended⟩ := log.exists_ended (j := cancelEvent eventId) (by rw [hwho]; rfl) hdone
    obtain ⟨_, run⟩ := Pool.Log.runs log hended
    rwa [cancelEvent_among_others hfiled run] at hended
  · obtain ⟨result, hended⟩ := log.exists_ended (j := s.sweep limit) (by rw [hwho]; rfl) hdone
    obtain ⟨_, run⟩ := Pool.Log.runs log hended
    refine ⟨result, hended, ?_⟩
    rintro report rfl
    exact report_eq_ofMarks run
  · subst hmoves
    exact stands_of_skipped log hskip
  · subst hmoves
    rintro n s limit hwho hyet later m last rfl hsender hsends
    exact claimed_of_sends hfiled log hskip hwho hyet hsender hsends
  · exact TaskStore.exists_reaches _ _
  · exact fun turns result s' run => cancelEvent_undisturbed (hfiled.drifts log.drifting.all) run

theorem isFiled_only (t : Task) : IsFiled (.only t) := by
  have hhistory : TaskStore.History .empty [⟨.epoch, .insert t, .ok ()⟩] (.only t) := .single rfl
  exact hhistory.isFiled TaskStore.isFiled_empty

/-- An invitation that is due. -/
def invitation : Task := { (default : Task) with action := .confirmation }

/-- One program is to sweep, and all others are to cancel the invitation. -/
def sweepAndCancel : Nat → Errand
  | 0 => .sweep defaultSweeper 1
  | _ => .cancel ""

/-- **A sweep has claimed the invitation when it is cancelled**, and cannot settle it any more. -/
theorem cancellation_wins_of_claimed : ∃ before skip after pool,
    Log sweepAndCancel (.only invitation) (before ++ skip :: after) pool ∧
      YetToExtend "" 0 before ∧ after ≠ [] ∧
      (∃ result, Ended (before ++ skip :: after) 1 (cancel "") result ∧
        Cancellation "" (Move.own 1 (before ++ skip :: after)) result) ∧
      ∃ t, Stands "" skip.turn after pool.state t := by
  let deadline := Instant.epoch.add defaultSweeper.config.claimLease
  let claimed : Task := { invitation with
    claimedBy := some defaultSweeper.id
    claimedUntil := some deadline }
  let skipped := claimed.finish .skipped none .epoch
  let s₁ : TaskStore := .only invitation
  let s₂ : TaskStore := .only claimed
  let s₃ : TaskStore := .only skipped
  have hclaim : invitation.claim? defaultSweeper.id deadline .epoch = some claimed := rfl
  have hskip : claimed.skip? .epoch = some skipped := rfl
  have hrefused :
      s₃.respond .epoch (.markFailed "" defaultSweeper.id Error.timeout.message .epoch) =
        (.ok false, s₃) :=
    TaskStore.respond_of_final rfl rfl (TaskStore.find?_only skipped) nofun .epoch
  -- the sweep up to its claim, the cancellation, and the rest of the sweep, turn by turn
  let listing : List (Turn TaskStore) :=
    [⟨s₁, .request .now, .epoch, s₁⟩,
      ⟨s₁, .request (.tasks (.listDue .epoch 1)), .ok [invitation], s₁⟩,
      ⟨s₁, .request .isCancelled, false, s₁⟩, ⟨s₁, .request .now, .epoch, s₁⟩]
  let claiming : Turn TaskStore :=
    ⟨s₁, .request (.tasks (.claim "" defaultSweeper.id deadline .epoch)), .ok (some claimed), s₂⟩
  let lookingUp : List (Turn TaskStore) :=
    [⟨s₂, .request (.tasks (.get "")), .ok (some claimed), s₂⟩, ⟨s₂, .request .now, .epoch, s₂⟩]
  let marking : Turn TaskStore := ⟨s₂, .request (.tasks (.markSkipped "" .epoch)), .ok true, s₃⟩
  let losing : List (Turn TaskStore) :=
    [⟨s₃, .request (.roster (.getEvent "")), .error .timeout, s₃⟩, ⟨s₃, .request .now, .epoch, s₃⟩,
      ⟨s₃, .request (.tasks (.markFailed "" defaultSweeper.id Error.timeout.message .epoch)),
        .ok false, s₃⟩]
  have hsweep : ∃ rest,
      Work.LeadsBy (shared False fun _ => False) s₁ (sweepAndCancel 0).program
          (listing ++ [claiming]) rest s₂ ∧
        Work.LeadsBy (shared False fun _ => False) s₃ rest losing (.done ()) s₃ :=
    ⟨_, TaskStore.leadsBy_elsewhere _ (fun _ h => by cases h)
      (TaskStore.leadsBy_tasks .epoch (TaskStore.respond_listDue_only rfl (Instant.le_refl _))
      (TaskStore.leadsBy_elsewhere _ (fun _ h => by cases h)
      (TaskStore.leadsBy_elsewhere _ (fun _ h => by cases h)
      (TaskStore.leadsBy_tasks .epoch (TaskStore.respond_claim_only hclaim) (.refl _ _))))),
      TaskStore.leadsBy_elsewhere _ (fun _ h => by cases h)
      (TaskStore.leadsBy_elsewhere _ (fun _ h => by cases h)
      (TaskStore.leadsBy_tasks .epoch hrefused (.refl _ _)))⟩
  have hcancel : Work.LeadsBy (shared False fun _ => False) s₂ (sweepAndCancel 1).program
      (lookingUp ++ [marking]) (.done ()) s₃ :=
    TaskStore.leadsBy_tasks .epoch (TaskStore.respond_get_only claimed)
      (TaskStore.leadsBy_elsewhere _ (fun _ h => by cases h)
      (TaskStore.leadsBy_tasks .epoch (TaskStore.respond_markSkipped_only hskip) (.refl _ _)))
  obtain ⟨rest, hclaims, hloses⟩ := hsweep
  have log₁ : Log sweepAndCancel s₁ [] ⟨s₁, [] ++ [(sweepAndCancel 0).program]⟩ := .starts .nil rfl
  have log₂ := Pool.Log.leads [] log₁ hclaims
  have log₃ : Log sweepAndCancel s₁ _ ⟨s₂, [rest] ++ [(sweepAndCancel 1).program]⟩ :=
    .starts log₂ rfl
  have log₄ := Pool.Log.leads [rest] log₃ hcancel
  have log : Log sweepAndCancel s₁
      (listing.map (⟨0, ·⟩) ++ ⟨0, claiming⟩ :: lookingUp.map (⟨1, ·⟩) ++
        ⟨1, marking⟩ :: losing.map (⟨0, ·⟩))
      ⟨s₃, [.done (), .done ()]⟩ :=
    Pool.Log.leads [] log₄ hloses
  obtain ⟨hcancels, _, _, hstands, _⟩ := cancellation_wins (isFiled_only invitation) log
  have hyet : YetToExtend "" 0
      (listing.map (⟨0, ·⟩) ++ ⟨0, claiming⟩ :: lookingUp.map (⟨1, ·⟩)) := by
    refine ⟨_, _, _, rfl, rfl, rfl, fun m hm hnumber => ?_⟩
    obtain ⟨turn, _, rfl⟩ := List.mem_map.mp hm
    cases hnumber
  exact ⟨_, _, _, _, log, hyet, nofun, hcancels 1 "" rfl rfl, (hstands _ _ _ _ _ rfl rfl).1⟩

end Scheduler

end Gathering
