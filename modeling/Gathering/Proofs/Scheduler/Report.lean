import Gathering.Proofs.FanOut.Fates
import Gathering.Proofs.Scheduler.Covering
import Gathering.Proofs.Store.Stores

/-!
# What an outreach reports

An outreach sends one message to each participant of the event who is in its audience,
in the order of the list, and reports when all sends have ended. What becomes of the
sends is up to the gateway: each has its fate, and none of them can keep another from
being made (`Scheduler.reachOut_reports`).

The report has to be true of the sends in the order in which they were started, while
it is made from what came of them in the order in which they ended. The second is the
first, sorted by the ends (`FanOut.Course.ended_eq`), and so are the failures by
themselves. The error that is reported is the first of those
(`Scheduler.outcomeOf_reports`).

Nothing is said of how the sends are run. An outreach is answered by what any course
of its sends may come to, as long as each send meets its fate, at any width.
-/

namespace Gathering

namespace Scheduler

/-! ## The report

A send has failed if it has ended with an error, and being cut off is one. The text of the report
is made from the errors in the order of the ends; the list of sends is kept in the order of the
starts. Sorting the one by ends gives the other, and it is stable, so that of sends that ended at
one instant the one that was started first comes first. -/

/-- The error of a send that has failed. -/
def failure? (x : Flight Participant × Except Error Unit) : Option Error :=
  match x.2 with
  | .ok () => none
  | .error e => some e

theorem failure?_eq_some_iff {x : Flight Participant × Except Error Unit} {e : Error} :
    failure? x = some e ↔ x.2 = .error e := by
  obtain ⟨f, result⟩ := x
  cases result with
  | ok u => simp [failure?]
  | error e' => simp [failure?]

theorem failure?_eq_none_iff {x : Flight Participant × Except Error Unit} :
    failure? x = none ↔ x.2 = .ok () := by
  obtain ⟨f, result⟩ := x
  cases result with
  | ok u => simp [failure?]
  | error e => simp [failure?]

/-- Whether a send has failed. -/
def hasFailed (x : Flight Participant × Except Error Unit) : Bool := (failure? x).isSome

theorem hasFailed_eq_false_iff {x : Flight Participant × Except Error Unit} :
    hasFailed x = false ↔ x.2 = .ok () := by
  unfold hasFailed
  rw [Option.isSome_eq_false_iff, Option.isNone_iff_eq_none, failure?_eq_none_iff]

/-- **A true report of sends**, which are listed in the order in which they were started. -/
structure Reports (kind : Outreach) (sends : List (Flight Participant × Except Error Unit))
    (result : Except Error Unit) : Prop where
  /-- It is good exactly if no send has failed. -/
  ok_iff : result = .ok () ↔ ∀ x ∈ sends, x.2 = .ok ()
  /-- Else it says how many of how many have failed, with the error of the one that ended first; of
  several that ended at one instant, of the one that was started first. The outreach can be tried
  again. -/
  of_error : ∀ e, result = .error e → e.isTransient = true ∧
    ∃ before flight first after, sends = before ++ (flight, .error first) :: after ∧
      (∀ x ∈ before, hasFailed x = true → flight.endsAt < x.1.endsAt) ∧
      (∀ x ∈ after, hasFailed x = true → flight.endsAt ≤ x.1.endsAt) ∧
      e = .gateway (Decimal.digitText (sends.countP hasFailed) ++ " of " ++
        Decimal.digitText sends.length ++ " " ++ kind.name ++ " sends failed, first error: " ++
        first.message)

variable {sends : List (Flight Participant × Except Error Unit)}

/-- The errors among results are those of the sends, in the order in which they ended. -/
theorem sendErrors_results (fan : Rehearsal.Sending) :
    sendErrors fan.results = fan.ended.filterMap failure? := by
  unfold sendErrors FanOut.results
  rw [List.filterMap_map]
  rfl

/-- The failure that comes first among the sorted sends ended before the failures that were
started earlier, and not after those that were started later.

That is what being first in a stable sort says of the list that was sorted. -/
theorem exists_first_failure {x : Flight Participant × Except Error Unit}
    {rest : List (Flight Participant × Except Error Unit)}
    (h : (sends.insertionSort FanOut.EndsBy).filter hasFailed = x :: rest) :
    ∃ before after, sends = before ++ x :: after ∧
      (∀ y ∈ before, hasFailed y = true → x.1.endsAt < y.1.endsAt) ∧
      ∀ y ∈ after, hasFailed y = true → x.1.endsAt ≤ y.1.endsAt := by
  rw [filter_insertionSort] at h
  obtain ⟨failed, failed', hsplit, hearlier, hlater⟩ := exists_split_of_insertionSort h
  obtain ⟨first, last, rfl, rfl, hlast⟩ := List.filter_eq_append_iff.mp hsplit
  obtain ⟨between, after, rfl, hnone, -, rfl⟩ := List.filter_eq_cons_iff.mp hlast
  refine ⟨first ++ between, after, by rw [List.append_assoc], fun y hy hfailed => ?_,
    fun y hy hfailed => hlater y (List.mem_filter.mpr ⟨hy, hfailed⟩)⟩
  rcases List.mem_append.mp hy with hy | hy
  · exact Nat.not_le.mp (hearlier y (List.mem_filter.mpr ⟨hy, hfailed⟩))
  · exact absurd hfailed (hnone y hy)

/-- **The outcome is a true report**, if it is told what came of the sends in the order in which
they ended. -/
theorem outcomeOf_reports (kind : Outreach) {fan : Rehearsal.Sending}
    (hended : fan.ended = sends.insertionSort FanOut.EndsBy) :
    Reports kind sends (outcomeOf kind sends.length fan.results) := by
  have hperm := List.perm_insertionSort FanOut.EndsBy sends
  have hcount : (sendErrors fan.results).length = sends.countP hasFailed := by
    rw [sendErrors_results, hended, List.length_filterMap_eq_countP]
    exact hperm.countP_eq _
  unfold outcomeOf
  cases herrors : sendErrors fan.results with
  | nil =>
    rw [herrors, List.length_nil, eq_comm, List.countP_eq_zero] at hcount
    have hnone : ∀ x ∈ sends, x.2 = .ok () := fun x hx =>
      hasFailed_eq_false_iff.mp (Bool.eq_false_iff.mpr (hcount x hx))
    exact ⟨⟨fun _ => hnone, fun _ => rfl⟩, fun e he => by cases he⟩
  | cons first rest =>
    -- the first error is that of the first failure among the sorted sends
    have hsome := herrors
    rw [sendErrors_results, hended] at hsome
    obtain ⟨passed, x, left, hsorted, hpassed, hx, -⟩ := List.filterMap_eq_cons_iff.mp hsome
    have hfailed : hasFailed x = true := by
      unfold hasFailed
      rw [hx, Option.isSome_some]
    have hfirst : (sends.insertionSort FanOut.EndsBy).filter hasFailed =
        x :: left.filter hasFailed := by
      rw [hsorted, List.filter_append, List.filter_cons_of_pos hfailed,
        List.filter_eq_nil_iff.mpr fun y hy => by simp [hasFailed, hpassed y hy], List.nil_append]
    -- and this one has its place among the sends as they were started
    obtain ⟨before, after, hsplit, hbefore, hafter⟩ := exists_first_failure hfirst
    obtain ⟨flight, result⟩ := x
    obtain rfl : result = .error first := failure?_eq_some_iff.mp hx
    refine ⟨⟨(fun h => by cases h), fun hall => ?_⟩, fun e he => ?_⟩
    · have hok := hall (flight, .error first) (hsplit ▸ by simp)
      cases hok
    · cases he
      refine ⟨rfl, before, flight, first, after, hsplit, hbefore, hafter, ?_⟩
      rw [← hcount, herrors, List.length_cons]

end Scheduler

/-! ## Outreaches

What an outreach can change is put into one state, the outbox: what the gateway was given, message
by message, and which sends were started. The calls that it makes of the store of tasks all extend
a lease, and here they are granted; what happens when one is refused is a matter of the conduct of
sweepers. -/

/-- Whether an effect has nothing to do with an outreach. -/
def Effect.isAside : Effect → Bool
  | .request (.roster _) | .request (.tasks (.extendLease _ _ _)) | .request (.send _)
  | .fanOut _ => false
  | _ => true

/-- **What an outreach has to do with**: the events and participants, and what it has sent. -/
structure Outbox where
  /-- The events and participants. -/
  roster : Roster
  /-- The messages that the gateway was given, in this order. -/
  messages : List Message
  /-- The sends to many in the order in which they were started, with what came of them. -/
  sends : List (Flight Participant × Except Error Unit)

namespace Outbox

/-- **How an outreach is answered.** The store of events and participants answers, leases are
extended, nothing is called off, and sends to many go on until each has met its fate. -/
inductive Answers (fates : List (FanOut.Fate (Except Error Unit))) (st : Outbox) :
    (e : Effect) → e.Answer → Outbox → Prop
  /-- The store of events and participants was called. -/
  | roster (call : Roster.Call) :
      Answers fates st (.request (.roster call)) (Stores.respond st.roster call).1
        { st with roster := (Stores.respond st.roster call).2 }
  /-- A lease was extended. -/
  | extension (id owner : String) (deadline : Instant) :
      Answers fates st (.request (.tasks (.extendLease id owner deadline))) (.ok true) st
  /-- The gateway was given one message. -/
  | send (m : Message) (answer : Except Error Unit) :
      Answers fates st (.request (.send m)) answer { st with messages := st.messages ++ [m] }
  /-- The gateway was given a message whenever a send was started. -/
  | fanOut (batch : Batch) {begun now : Nat}
      {log : List (FanOut.Send Participant (Except Error Unit))} {fan : Rehearsal.Sending}
      (course : FanOut.Course lateSend (Rehearsal.sendingOf batch) begun log now fan)
      (hover : fan.isOver = true)
      (hmeets : List.Forall₂ (FanOut.Send.Meets batch.limit.nanos lateSend) fates log) :
      Answers fates st (.fanOut batch) fan.results
        { st with
          messages := st.messages ++ (log.map (·.flight.target)).map (Rehearsal.messageTo batch)
          sends := st.sends ++ FanOut.Send.ended log }
  /-- It has nothing to do with an outreach. -/
  | elsewhere {e : Effect} (h : e.isAside = true) (answer : e.Answer) : Answers fates st e answer st

/-- **An outreach with the fates of its sends.** Meanwhile events and participants change in any
way. -/
def shared (fates : List (FanOut.Fate (Except Error Unit))) : Surroundings Outbox where
  answers := Answers fates
  meanwhile st st' := ∃ roster, st' = { st with roster }

variable {fates : List (FanOut.Fate (Except Error Unit))} {st st' : Outbox}

theorem Answers.of_getEvent {eventId : String} {answer : Except Error (Option Event)}
    (h : Answers fates st (.request (.roster (.getEvent eventId))) answer st') :
    answer = .ok (st.roster.event? eventId) ∧ st' = st := by
  cases h with
  | roster => exact ⟨rfl, rfl⟩
  | elsewhere h => cases h

theorem Answers.of_listParticipants {eventId : String} {answer : Except Error (List Participant)}
    (h : Answers fates st (.request (.roster (.listParticipants eventId))) answer st') :
    answer = .ok (st.roster.participantsOf eventId) ∧ st' = st := by
  cases h with
  | roster => exact ⟨rfl, rfl⟩
  | elsewhere h => cases h

theorem Answers.of_extendLease {id owner : String} {deadline : Instant}
    {answer : Except Error Bool}
    (h : Answers fates st (.request (.tasks (.extendLease id owner deadline))) answer st') :
    answer = .ok true ∧ st' = st := by
  cases h with
  | extension => exact ⟨rfl, rfl⟩
  | elsewhere h => cases h

theorem Answers.of_now {answer : Instant} (h : Answers fates st (.request .now) answer st') :
    st' = st := by
  cases h with
  | elsewhere => rfl

end Outbox

namespace Scheduler

variable {s : Scheduler} {task : Task} {kind : Outreach} {event : Event}
  {fates : List (FanOut.Fate (Except Error Unit))} {st st' : Outbox} {turns : List (Turn Outbox)}
  {result : Except Error Unit}

/-- **Sends have reached all targets** of an outreach, each once, and the report is true. -/
structure ReachesAll (s : Scheduler) (kind : Outreach) (event : Event) (targets : List Participant)
    (fates : List (FanOut.Fate (Except Error Unit))) (st st' : Outbox)
    (result : Except Error Unit) : Prop where
  /-- The gateway was given one message for each target in order, and no other. -/
  messages_eq : st'.messages = st.messages ++ targets.map (.outreach kind event)
  /-- The sends were started in the order of the targets, and each has met its fate. The report on
  them is true. -/
  exists_sends : ∃ sends, st'.sends = st.sends ++ sends ∧ sends.map (·.1.target) = targets ∧
    sends.Pairwise (·.1.startedAt ≤ ·.1.startedAt) ∧
    List.Forall₂ (FanOut.Send.Meets s.config.sendTimeout.nanos lateSend) fates
      (sends.map .done) ∧
    Reports kind sends result
  /-- It is good exactly if every send would have been in time and good. -/
  ok_iff : result = .ok () ↔
    ∀ fate ∈ fates, fate.duration ≤ s.config.sendTimeout.nanos ∧ fate.returns = .ok ()

/-- **How an outreach goes that finds its event**: it lists the participants, and then it ends if
there is nobody to send to, or else it sends.

The answers of the outbox leave no other way. Others come in between, but all they change is the
events and participants, and those are not looked at any more once they were listed. -/
theorem runs_reachOut_cases
    (run : Work.Runs (Outbox.shared fates) st (s.reachOut task kind).run turns result st')
    (hevent : ⟨.request (.roster (.getEvent task.eventId)), .ok (some event)⟩ ∈
      turns.map (·.deed)) :
    ∃ asking listing rest listed, turns = asking :: listing :: rest ∧
      listing.deed = ⟨.request (.roster (.listParticipants task.eventId)), .ok listed⟩ ∧
      listed = listing.before.roster.participantsOf task.eventId ∧
      (kind.targets listed = [] ∧ rest = [] ∧ result = .ok () ∧
          (∃ roster, st' = { st with roster }) ∨
        kind.targets listed ≠ [] ∧ ∃ results roster,
          Outbox.Answers fates { st with roster } (.fanOut (s.batchOf kind event listed))
            results st' ∧
          result = outcomeOf kind (kind.targets listed).length results) := by
  rw [run_reachOut] at run
  obtain ⟨_, event?, _, _, rfl, ⟨roster, rfl⟩, hasked, run⟩ := Work.runs_call_iff.mp run
  match event? with
  | .error e => cases hasked.of_getEvent.1
  | .ok none =>
    obtain ⟨rfl, -, -⟩ := Work.runs_pure_iff.mp run
    simp [Turn.deed] at hevent
  | .ok (some event') =>
    obtain ⟨-, rfl⟩ := hasked.of_getEvent
    obtain ⟨_, listed?, _, _, rfl, ⟨roster₁, rfl⟩, hlisted, run⟩ := Work.runs_call_iff.mp run
    obtain ⟨rfl, rfl⟩ := hlisted.of_listParticipants
    dsimp only at run
    refine ⟨_, _, _, _, rfl, rfl, rfl, ?_⟩
    split at run
    · next hnobody =>
      obtain ⟨rfl, rfl, rfl⟩ := Work.runs_pure_iff.mp run
      exact .inl ⟨List.isEmpty_iff.mp hnobody, rfl, rfl, _, rfl⟩
    · next hsome =>
      obtain ⟨_, now, _, _, rfl, ⟨roster₂, rfl⟩, htold, run⟩ := Work.runs_call_iff.mp run
      obtain rfl := htold.of_now
      obtain ⟨_, extended?, _, _, rfl, ⟨roster₃, rfl⟩, hextended, run⟩ := Work.runs_call_iff.mp run
      obtain ⟨rfl, rfl⟩ := hextended.of_extendLease
      -- the lease was extended, so the sends are made
      obtain ⟨_, results, _, _, rfl, ⟨roster₄, rfl⟩, hsent, run⟩ := Work.runs_call_iff.mp run
      obtain ⟨rfl, rfl, rfl⟩ := Work.runs_pure_iff.mp run
      obtain rfl : event = event' := by simpa [Turn.deed] using hevent
      exact .inr ⟨by simpa using hsome, results, roster₄, hsent, rfl⟩

/-- **Sends to many reach all of them**, whatever becomes of each.

The course of the sends is over, so all targets were started, in order; each send meets its fate,
which says whether it is good; and the results come in the order of the ends
(`FanOut.Course.ended_eq`). -/
theorem reachesAll_of_fanOut {listed : List Participant} {roster : Roster}
    {results : List (Participant × Except Error Unit)}
    (h : Outbox.Answers fates { st with roster } (.fanOut (s.batchOf kind event listed)) results
      st') :
    ReachesAll s kind event (kind.targets listed) fates st st'
      (outcomeOf kind (kind.targets listed).length results) := by
  cases h with
  | elsewhere h => cases h
  | @fanOut _ begun now log fan course hover hmeets =>
    have hwidth : 0 < (Rehearsal.sendingOf (s.batchOf kind event listed)).width :=
      Nat.lt_of_lt_of_le Nat.zero_lt_one (Nat.le_max_right _ 1)
    obtain ⟨hlog, hwaiting⟩ := course.of_isOver rfl hover
    have hended := course.ended_eq rfl rfl hwidth
    have hstarts := course.pairwise_startedAt.1
    have htargets : log.map (·.flight.target) = kind.targets listed := by
      have htargets := course.targets_eq
      rwa [hwaiting, List.append_nil] at htargets
    have hmessages :=
      congrArg (List.map (Rehearsal.messageTo (s.batchOf kind event listed))) htargets
    -- the log lists what has ended, in the order in which the sends were started
    generalize FanOut.Send.ended log = sends at hlog hended ⊢
    subst hlog
    rw [List.map_map] at htargets
    rw [List.pairwise_map] at hstarts
    have hlength : sends.length = (kind.targets listed).length := by
      rw [← htargets, List.length_map]
    have hreports := outcomeOf_reports kind hended
    rw [hlength] at hreports
    refine ⟨congrArg (st.messages ++ ·) hmessages,
      ⟨sends, rfl, htargets, hstarts, hmeets, hreports⟩, ?_⟩
    rw [hreports.ok_iff, FanOut.Send.forall_iff_of_meets hmeets (· = .ok ())]
    exact forall₂_congr fun fate _ => FanOut.Fate.result_eq_iff (by simp)

/-- **An outreach comes to an end**, whatever becomes of its sends; and meanwhile it may be
alone. -/
theorem exists_runs_reachOut (s : Scheduler) (task : Task) (kind : Outreach)
    (hevent : st.roster.event? task.eventId = some event)
    (hfates : fates.length = (kind.targets (st.roster.participantsOf task.eventId)).length) :
    ∃ turns result st',
      Work.Runs (Outbox.shared fates) st (s.reachOut task kind).run turns result st' ∧
      ⟨.request (.roster (.getEvent task.eventId)), .ok (some event)⟩ ∈ turns.map (·.deed) ∧
      ∀ turn ∈ turns, turn.before = st := by
  rw [run_reachOut]
  have hrefl : (Outbox.shared fates).meanwhile st st := ⟨st.roster, rfl⟩
  have hasked : Outbox.Answers fates st (.request (.roster (.getEvent task.eventId)))
      (.ok (some event)) st := by
    rw [← hevent]
    exact .roster _
  have hlisted : Outbox.Answers fates st (.request (.roster (.listParticipants task.eventId)))
      (.ok (st.roster.participantsOf task.eventId)) st := .roster _
  generalize st.roster.participantsOf task.eventId = listed at hfates hlisted
  by_cases hnobody : (kind.targets listed).isEmpty
  · exact ⟨_, _, _, .ask hrefl hasked (.ask hrefl hlisted (by
      show Work.Runs _ _ (if _ then _ else _) _ _ _
      rw [if_pos hnobody]
      exact .done _ _)), List.mem_cons_self, by simp⟩
  · -- the fates may be any, so the course that the sends take is the one that fits them
    obtain ⟨log, now, fan, course, hover, hmeets⟩ :
        ∃ log now fan, FanOut.Course lateSend (Rehearsal.sendingOf (s.batchOf kind event listed)) 0
          log now fan ∧ fan.isOver = true ∧
          List.Forall₂ (FanOut.Send.Meets s.config.sendTimeout.nanos lateSend) fates log :=
      FanOut.exists_course rfl (Nat.lt_of_lt_of_le Nat.zero_lt_one (Nat.le_max_right _ 1)) hfates 0
    exact ⟨_, _, _, .ask hrefl hasked (.ask hrefl hlisted (by
      show Work.Runs _ _ (if _ then _ else _) _ _ _
      rw [if_neg hnobody]
      exact .ask hrefl (.elsewhere rfl Instant.epoch) (.ask hrefl (.extension _ _ _)
        (.ask hrefl (.fanOut _ course hover hmeets) (.done _ _))))), List.mem_cons_self, by simp⟩

/-- **An outreach reaches all to whom it is addressed, and reports truly.** Whatever becomes of
its sends, and whatever happens to events and participants meanwhile: if the event is found, the
participants are listed, and if none of them is addressed, nothing else is done. Otherwise the
gateway is given one message for each who is, and the report is true. And an outreach does come to
an end, whatever fates its sends have.

How it goes is `runs_reachOut_cases`, and what the sends come to `reachesAll_of_fanOut`. That it
ends is shown by a run in which nobody interferes, for sends with any fates there may be. -/
theorem reachOut_reports (s : Scheduler) (task : Task) (kind : Outreach)
    (fates : List (FanOut.Fate (Except Error Unit))) (st : Outbox) :
    (∀ event turns result st',
      Work.Runs (Outbox.shared fates) st (s.reachOut task kind).run turns result st' →
      ⟨.request (.roster (.getEvent task.eventId)), .ok (some event)⟩ ∈ turns.map (·.deed) →
      ∃ asking listing rest listed, turns = asking :: listing :: rest ∧
        listing.deed = ⟨.request (.roster (.listParticipants task.eventId)), .ok listed⟩ ∧
        listed = listing.before.roster.participantsOf task.eventId ∧
        if kind.targets listed = [] then
          result = .ok () ∧ rest = [] ∧ st'.messages = st.messages ∧ st'.sends = st.sends
        else ReachesAll s kind event (kind.targets listed) fates st st' result) ∧
    ∀ event, st.roster.event? task.eventId = some event →
      fates.length = (kind.targets (st.roster.participantsOf task.eventId)).length →
      ∃ turns result st',
        Work.Runs (Outbox.shared fates) st (s.reachOut task kind).run turns result st' ∧
        ⟨.request (.roster (.getEvent task.eventId)), .ok (some event)⟩ ∈ turns.map (·.deed) ∧
        ∀ turn ∈ turns, turn.before = st := by
  refine ⟨fun event turns result st' run hevent => ?_,
    fun event => exists_runs_reachOut s task kind⟩
  obtain ⟨asking, listing, rest, listed, hturns, hlisting, hlisted, hrest⟩ :=
    runs_reachOut_cases run hevent
  refine ⟨asking, listing, rest, listed, hturns, hlisting, hlisted, ?_⟩
  rcases hrest with ⟨hnobody, rfl, rfl, roster, rfl⟩ | ⟨hsome, results, roster, hsent, rfl⟩
  · rw [if_pos hnobody]
    exact ⟨rfl, rfl, rfl, rfl⟩
  · rw [if_neg hsome]
    exact reachesAll_of_fanOut hsent

/-- The event that three guests have not replied to. -/
def guestsEvent : Event := ⟨"e", "o", "", .scheduled, .epoch, none, none⟩

/-- Three sends: the first takes too long, the gateway refuses the second, and the third is good. -/
def threeFates : List (FanOut.Fate (Except Error Unit)) :=
  [⟨31000000000, .ok ()⟩, ⟨5, .error (.gateway "refused")⟩, ⟨7, .ok ()⟩]

/-- **Three guests are asked, two at a time**, and two sends fail: all three are asked, and the
outreach has failed. -/
theorem reachOut_reports_of_three :
    ∃ turns result st',
      Work.Runs (Outbox.shared threeFates)
        ⟨⟨Keyed.empty.insert "e" guestsEvent, threeGuests⟩, [], []⟩
        (reachOut ⟨"s", { fanoutConcurrency := 2 }⟩ { (default : Task) with eventId := "e" }
          .confirmation).run turns result st' ∧
      st'.messages = threeGuests.map (.outreach .confirmation guestsEvent) ∧ result ≠ .ok () := by
  obtain ⟨hreports, hruns⟩ := reachOut_reports ⟨"s", { fanoutConcurrency := 2 }⟩
    { (default : Task) with eventId := "e" } .confirmation threeFates
    ⟨⟨Keyed.empty.insert "e" guestsEvent, threeGuests⟩, [], []⟩
  obtain ⟨turns, result, st', run, hevent, halone⟩ := hruns guestsEvent (by decide) (by decide)
  obtain ⟨asking, listing, rest, listed, rfl, -, rfl, hreached⟩ := hreports _ _ _ _ run hevent
  rw [halone listing (by simp), if_neg (by decide)] at hreached
  refine ⟨_, _, _, run, hreached.messages_eq, fun hok => ?_⟩
  have hfate := hreached.ok_iff.mp hok ⟨31000000000, .ok ()⟩ List.mem_cons_self
  exact absurd hfate.1 (by decide)

end Scheduler

end Gathering
