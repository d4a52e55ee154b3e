import Gathering.Proofs.Crew.Solo
import Gathering.Proofs.Crew.Timing
import Mathlib.Logic.Function.Defs

/-!
# Exclusive sending

A sweeper sends for a task only after it has extended its lease, and as long as
the sends have not all ended nobody else claims the task. So no two sweepers ever
send for one task at the same time, as long as claims are made for some time at
all. If they are made for none, there is one instant at which this can fail: the
deadline of the extension, which is then the very time at which the last send
may end. Who comes at that instant finds the lease over, whether the end of the
send has been noticed or not.

Which task a sweeper sends for is read off what has happened (`Crew.coverage`):
the one whose lease it has extended, until the sends are over.

The invariant is `Guarded`. Two sweepers take a part in it for each task that is
sent for: the store holds it for the one that sends (`kept`), and the other one
does not send (`apart`). The first is broken only by a claim or a release. A
release needs the name of the holder, who is busy; a claim needs a time that is
not before the deadline, and the sends are over by then.

What a sweeper may do is a matter of its own standing, and what the store does a
matter of the rules for its rows. The two are brought together once, where a claim
of a task that is sent for is looked at (`Guarded.hasLapsed_of_claim`): the store
grants it only if the deadline is not after the time that the claim was made with,
and whoever makes it was told this time before.
-/

namespace Gathering

/-- The task whose lease was extended and the deadline, until the sends are over. -/
def Standing.coverage? : Standing → Option (String × Instant)
  | .covered t _ deadline => some (t.id, deadline)
  | _ => none

/-- Whether the sweeper may still send for the task that it holds. -/
def Standing.maySend : Standing → Bool
  | .holding _ renewed | .dated _ renewed _ => !renewed
  | .covered _ _ _ => true
  | _ => false

/-- What becomes of the lease that a sweeper has extended. -/
def Deed.cover (held : Option (String × Instant)) : Deed → Option (String × Instant)
  | .asks (.tasks (.extendLease id _ deadline)) (.ok true) => some (id, deadline)
  | .finishes | .abandons => none
  | _ => held

/-- Whether a sweeper has claimed a task. -/
def Deed.isClaim : Deed → Bool
  | .asks (.tasks (.claim _ _ _ _)) (.ok (some _)) => true
  | _ => false

/-- Whether a sweeper has begun to send, or started a send. -/
def Deed.isSend : Deed → Bool
  | .launches _ | .starts _ => true
  | _ => false

namespace Crew

variable {ι : Type} [DecidableEq ι]

/-- What becomes of the lease that a sweeper has extended when something happens. -/
def cover (i : ι) (held : Option (String × Instant)) : Happening ι → Option (String × Instant)
  | .by_ j d => if j = i then d.cover held else held
  | _ => held

/-- **The task that a sweeper sends for**, and until when its lease lasts: what the last extension
that was granted was about, unless the sends are over. -/
def coverage (i : ι) (es : List (Happening ι)) : Option (String × Instant) :=
  es.foldl (cover i) none

variable {S : Setting ι} {pace : Crew ι → Nat → Prop} {c c' : Crew ι} {e : Happening ι}
  {es : List (Happening ι)} {i j : ι} {st : Standing} {t : Task} {now deadline : Instant}

/-! ## Extensions

The deadline of a sweeper comes into its standing by an extension that was granted, and by nothing
else, and it goes when the sends are over. So `coverage`, which looks at the calls only, says of
every run what the standing says (`Run.coverage`). -/

/-- **Sends are covered from the extension on until they are over.** -/
theorem Step.covered_cases (h : Step S pace c e c')
    (hobeys : (c.hands i).Obeys (S.scheduler i) st)
    (hcovered : follow i st e = .covered t now deadline) :
    st = .covered t now deadline ∨
      (st = .dated t false now ∧ e =
        .by_ i (.asks (.tasks (.extendLease t.id (S.scheduler i).id deadline)) (.ok true))) := by
  rcases h.hand_cases i with ⟨d, rfl, hstep, _⟩ | ⟨_, _, hfollow⟩
  · rw [follow_by_self] at hcovered
    cases d with
    | asks r answer =>
      have hturns := hstep.turns hobeys
      generalize st.turn (.asks r answer) = st' at hturns hcovered
      cases hturns with
      | told h _ =>
        cases st with
        | covered _ _ _ => cases h
        | _ => cases hcovered
      | extended =>
        cases hcovered
        exact .inr ⟨rfl, rfl⟩
      | cancelled _ _ => exact .inl hcovered
      | listed _ _ => exact .inl hcovered
      | _ => cases hcovered
    | finishes => cases st <;> cases hcovered
    | abandons => cases st <;> cases hcovered
    | _ => exact .inl hcovered
  · rw [hfollow] at hcovered
    exact .inl hcovered

/-- Sends that have not all ended had not before. -/
theorem Step.isDone_eq_false (h : Step S pace c e c')
    (hcovered : follow i st e = .covered t now deadline) (hdone : (c'.hands i).isDone = false) :
    (c.hands i).isDone = false := by
  rw [← Bool.not_eq_true]
  intro hbefore
  rcases h.hand_cases i with ⟨d, rfl, hstep, _⟩ | ⟨hkept, _, _⟩
  · rw [follow_by_self] at hcovered
    rcases hstep.eq_of_isDone hbefore with rfl | rfl
    · cases st <;> cases hcovered
    · cases st <;> cases hcovered
  · rw [hkept, hbefore] at hdone
    cases hdone

theorem Step.cover (h : Step S pace c e c') (hobeys : (c.hands i).Obeys (S.scheduler i) st) :
    cover i st.coverage? e = (follow i st e).coverage? := by
  rcases h.hand_cases i with ⟨d, rfl, hstep, _⟩ | ⟨_, hother, hfollow⟩
  · rw [follow_by_self, Crew.cover, if_pos rfl]
    cases d with
    | asks r answer =>
      -- an answer changes the coverage only if it says that a lease was extended
      have hturns := hstep.turns hobeys
      generalize st.turn (.asks r answer) = st' at hturns
      cases hturns with
      | told h _ =>
        cases st with
        | covered _ _ _ => cases h
        | _ => rfl
      | refused answer hne =>
        match answer with
        | .error _ => rfl
        | .ok false => rfl
        | .ok true => exact absurd rfl hne
      | _ => rfl
    | finishes => cases st <;> rfl
    | abandons => cases st <;> rfl
    | _ => rfl
  · rw [hfollow]
    cases e with
    | by_ j d => exact if_neg fun hji => hother d (by rw [hji])
    | _ => rfl

theorem Run.coverage (run : Run S pace start es c) (i : ι) :
    coverage i es = (standing i es).coverage? := by
  induction run with
  | nil => rfl
  | snoc run step ih =>
    rw [standing_append, ← step.cover (run.obeys i), ← ih]
    simp [Crew.coverage]

/-! ## The invariant

The field `kept` needs the names of the sweepers to differ: the store knows the holder of a task
by name, and a sweeper with the name of another could settle its task. The field `apart` needs
`kept`, since an extension is granted to the holder only. -/

/-- A deadline that a sweeper was given has come, and its claims are made for no time. -/
def HasLapsed (S : Setting ι) (c : Crew ι) (i : ι) (deadline : Instant) : Prop :=
  (S.scheduler i).config.claimLease.nanos = 0 ∧ deadline ≤ S.wall.elapsed c.clock

/-- **Sends are guarded**, where the sweepers stand like this.

The first three fields are what each sweeper brings along: its conduct, the time that it goes by,
and a deadline before the end of the clock. The last two are what is claimed of all of them
together. They have one exception between them, a deadline that has come while claims are made for
no time. -/
structure Guarded (S : Setting ι) (st : ι → Standing) (c : Crew ι) : Prop where
  /-- Every sweeper keeps to its conduct. -/
  obeys : ∀ i, (c.hands i).Obeys (S.scheduler i) (st i)
  /-- Every sweeper goes by a time that is known. -/
  timed : ∀ i, (c.hands i).Timed S.wall c.clock (st i)
  /-- No lease was extended to the end of the clock. -/
  below : ∀ {i t now deadline}, st i = .covered t now deadline → deadline < Instant.last
  /-- A task that is sent for is held by the sweeper that sends. -/
  kept : ∀ {i t now deadline}, st i = .covered t now deadline → (c.hands i).isDone = false →
    HasLapsed S c i deadline ∨
      ∃ row, c.tasks.find? t.id = some row ∧ row.HeldUntil (S.scheduler i).id deadline
  /-- No two sweepers send for one task. -/
  apart : ∀ {i j t u now now' deadline deadline'}, i ≠ j → st i = .covered t now deadline →
    (c.hands i).isDone = false → st j = .covered u now' deadline' → (c.hands j).isDone = false →
      t.id = u.id → HasLapsed S c i deadline ∨ HasLapsed S c j deadline'

variable {standings : ι → Standing}

omit [DecidableEq ι] in
theorem Guarded.elapsed_le (h : Guarded S standings c)
    (hst : standings i = .covered t now deadline) (hdone : (c.hands i).isDone = false) :
    S.wall.elapsed c.clock ≤ deadline ∧
      (0 < (S.scheduler i).config.claimLease.nanos → S.wall.elapsed c.clock < deadline) := by
  have htimed := h.timed i
  have hobeys := h.obeys i
  rw [hst] at htimed hobeys
  exact htimed.elapsed_le_deadline hobeys hdone (h.below hst)

/-- **Who claims a task that is sent for comes at the deadline**, and only where claims are made
for no time.

The time of the claim is one that the sweeper was told, so it is not after the time of the clock;
and by the clock the deadline has not passed. If it has been reached nevertheless, claims are made
for no time. -/
theorem Guarded.hasLapsed_of_claim (h : Guarded S standings c)
    (hst : standings i = .covered t now deadline) (hdone : (c.hands i).isDone = false)
    {owner : String} {until_ at_ : Instant} {u : Task}
    (hstep : Step S pace c
      (.by_ j (.asks (.tasks (.claim t.id owner until_ at_)) (.ok (some u)))) c') :
    HasLapsed S c i deadline := by
  rcases h.kept hst hdone with hlapsed | ⟨row, hrow, hheld⟩
  · exact hlapsed
  -- the store refuses whoever comes before the deadline
  have hle : deadline ≤ at_ := by
    rcases hstep.moves t.id with ⟨entry, hentry, hmoves⟩ | ⟨hentry, _⟩
    · cases hentry
      rw [hrow] at hmoves
      exact hmoves.le_of_claims ⟨_, _, rfl⟩ hheld
    · cases hentry
  -- and whoever claims was told the time before
  have hturns := hstep.turns (h.obeys j)
  generalize (standings j).turn _ = st' at hturns
  generalize hstj : standings j = stj at hturns
  cases hturns with
  | unclaimed _ hne => exact absurd rfl (hne u)
  | claimed _ =>
    obtain ⟨m, hm, hat⟩ := (h.timed j).told at_ (by rw [hstj]; rfl)
    obtain ⟨helapsed, hstrict⟩ := h.elapsed_le hst hdone
    have hlast := h.below hst
    have hclock : deadline ≤ S.wall.elapsed c.clock := by
      rw [hat] at hle
      exact Instant.le_trans hle
        (Instant.elapsed_le_elapsed hm (Instant.lt_of_le_of_lt helapsed hlast))
    -- were claims made for some time, the deadline would still be ahead
    refine ⟨Nat.eq_zero_of_not_pos fun hlease => ?_, hclock⟩
    exact Instant.not_lt.mpr hclock (hstrict hlease)

/-- A task stays held by the sweeper that sends for it, until its deadline has come. -/
theorem Guarded.kept_step (h : Guarded S standings c)
    (hids : Function.Injective fun i => (S.scheduler i).id) (hstep : Step S pace c e c')
    (hst : standings i = .covered t now deadline) (hdone : (c.hands i).isDone = false) :
    HasLapsed S c i deadline ∨
      ∃ row, c'.tasks.find? t.id = some row ∧ row.HeldUntil (S.scheduler i).id deadline := by
  rcases h.kept hst hdone with hlapsed | ⟨row, hrow, hheld⟩
  · exact .inl hlapsed
  rcases hstep.moves t.id with ⟨entry, hentry, hmoves⟩ | ⟨_, htasks⟩
  · rw [hrow] at hmoves
    obtain ⟨row', hrow', _⟩ := hmoves.origin
    by_cases hclaims : entry.claims t.id = true
    · -- the row changes hands by a claim only
      obtain ⟨j, owner, until_, at_, u, rfl⟩ := hstep.by_of_claims hentry hclaims
      exact .inl (h.hasLapsed_of_claim hst hdone hstep)
    · by_cases hreleases : entry.releases t.id = true
      · -- a release bears the name of the holder, and the holder is busy
        obtain ⟨j, owner, error, n, rfl⟩ := hstep.by_of_releases hentry hreleases
        cases hentry
        have howner := hmoves.eq_of_release hheld
        have hturns := hstep.turns (h.obeys j)
        generalize (standings j).turn _ = st' at hturns
        generalize hstj : standings j = stj at hturns
        generalize t.id = x at hturns
        cases hturns with
        | retried _ _ =>
          obtain rfl := hids howner
          rw [hst] at hstj
          cases hstj
      · rw [hrow'] at hmoves
        -- nothing else shortens a lease
        refine .inr ⟨row', hrow', ?_⟩
        exact hmoves.heldUntil (Bool.eq_false_iff.mpr hclaims) (Bool.eq_false_iff.mpr hreleases)
          hheld
  · rw [htasks]
    exact .inr ⟨row, hrow, hheld⟩

/-- The lease of a task that is sent for is not extended by others, until the deadline has come. -/
theorem Guarded.hasLapsed_of_extension (h : Guarded S standings c)
    (hids : Function.Injective fun i => (S.scheduler i).id) (hij : i ≠ j)
    (hst : standings i = .covered t now deadline) (hdone : (c.hands i).isDone = false)
    {until_ : Instant}
    (hstep : Step S pace c
      (.by_ j (.asks (.tasks (.extendLease t.id (S.scheduler j).id until_)) (.ok true))) c') :
    HasLapsed S c i deadline := by
  rcases h.kept hst hdone with hlapsed | ⟨row, hrow, hheld⟩
  · exact hlapsed
  rcases hstep.moves t.id with ⟨entry, hentry, hmoves⟩ | ⟨hentry, _⟩
  · cases hentry
    rw [hrow] at hmoves
    exact absurd (hids (hmoves.eq_of_extension hheld)).symm hij
  · cases hentry

/-- No two sweepers send for one task, unless the deadline of one of them had come.

Of two that send after the step at most one began with it. If none did, they sent before and were
apart already. If one did, it has extended the lease of a task that the other one holds, and that
is granted only when the deadline of the other one has come. -/
theorem Guarded.apart_step (h : Guarded S standings c)
    (hids : Function.Injective fun i => (S.scheduler i).id) (hstep : Step S pace c e c')
    {u : Task} {now' deadline' : Instant} (hij : i ≠ j)
    (hst : follow i (standings i) e = .covered t now deadline) (hdone : (c.hands i).isDone = false)
    (hst' : follow j (standings j) e = .covered u now' deadline')
    (hdone' : (c.hands j).isDone = false) (hid : t.id = u.id) :
    HasLapsed S c i deadline ∨ HasLapsed S c j deadline' := by
  rcases hstep.covered_cases (h.obeys i) hst with hold | ⟨_, he⟩
  · rcases hstep.covered_cases (h.obeys j) hst' with hold' | ⟨_, rfl⟩
    · exact h.apart hij hold hdone hold' hdone' hid
    · -- the other one has extended its lease just now
      rw [← hid] at hstep
      exact .inl (h.hasLapsed_of_extension hids hij hold hdone hstep)
  · rcases hstep.covered_cases (h.obeys j) hst' with hold' | ⟨_, he'⟩
    · subst he
      rw [hid] at hstep
      exact .inr (h.hasLapsed_of_extension hids (Ne.symm hij) hold' hdone' hstep)
    · rw [he] at he'
      exact absurd (Happening.by_.inj he').1 hij

theorem HasLapsed.step (h : HasLapsed S c i deadline) (hstep : Step S pace c e c')
    (hlast : S.wall.elapsed c'.clock < Instant.last) : HasLapsed S c' i deadline :=
  ⟨h.1, Instant.le_trans h.2 (Instant.elapsed_le_elapsed hstep.clock_le hlast)⟩

/-- **Whatever happens in a punctual crew keeps its sends guarded**, if the sweepers have different
names. -/
theorem Guarded.step (h : Guarded S standings c)
    (hids : Function.Injective fun i => (S.scheduler i).id) (hstep : Step S Punctual c e c')
    (hbounded : e.IsBounded) : Guarded S (fun i => follow i (standings i) e) c' := by
  have hobeys : ∀ i, (c'.hands i).Obeys (S.scheduler i) (follow i (standings i) e) := fun i =>
    hstep.obeys (h.obeys i)
  have htimed : ∀ i, (c'.hands i).Timed S.wall c'.clock (follow i (standings i) e) := fun i =>
    hstep.timed hbounded (h.obeys i) (h.timed i)
  have hbelow : ∀ {i t now deadline}, follow i (standings i) e = .covered t now deadline →
      deadline < Instant.last := by
    intro i t now deadline hst
    rcases hstep.covered_cases (h.obeys i) hst with hold | ⟨_, rfl⟩
    · exact h.below hold
    · exact hbounded
  have hlapsed : ∀ {i t now deadline}, follow i (standings i) e = .covered t now deadline →
      (c'.hands i).isDone = false → HasLapsed S c i deadline → HasLapsed S c' i deadline := by
    intro i t now deadline hst hdone hl
    have ht := htimed i
    have ho := hobeys i
    rw [hst] at ht ho
    exact hl.step hstep
      (Instant.lt_of_le_of_lt (ht.elapsed_le_deadline ho hdone (hbelow hst)).1 (hbelow hst))
  -- what is left are the fields about the task, which hold by the lemmas above if the sweeper
  -- sent before, and by the extension if it begins to send now
  refine ⟨hobeys, htimed, hbelow, ?_, ?_⟩
  · intro i t now deadline hst hdone
    rcases hstep.covered_cases (h.obeys i) hst with hold | ⟨_, rfl⟩
    · have hbefore := hstep.isDone_eq_false hst hdone
      exact (h.kept_step hids hstep hold hbefore).imp_left (hlapsed hst hdone)
    · -- this is the extension itself: the row is held until its deadline
      right
      rcases hstep.moves t.id with ⟨entry, hentry, hmoves⟩ | ⟨hentry, _⟩
      · cases hentry
        obtain ⟨row, hrow⟩ := hmoves.isSome_of_grants .extension
        rw [hrow] at hmoves
        exact ⟨row, hrow, hmoves.heldUntil_of_grants .extension⟩
      · cases hentry
  · intro i j t u now now' deadline deadline' hij hst hdone hst' hdone' hid
    exact (h.apart_step hids hstep hij hst (hstep.isDone_eq_false hst hdone) hst'
      (hstep.isDone_eq_false hst' hdone') hid).imp (hlapsed hst hdone) (hlapsed hst' hdone')

/-- **In every run of a punctual crew the sends are guarded.**

At first no sweeper stands anywhere and no task is held, and each step keeps the guard
(`Guarded.step`). -/
theorem Run.guarded (run : Run S Punctual start es c)
    (hids : Function.Injective fun i => (S.scheduler i).id) (hbounded : ∀ e ∈ es, e.IsBounded) :
    Guarded S (fun i => standing i es) c := by
  induction run with
  | nil =>
    refine ⟨fun _ => rfl, fun _ => ⟨?_, ?_, ?_⟩, ?_, ?_, ?_⟩
    all_goals
      intros
      contradiction
  | @snoc _ _ es e _ hstep ih =>
    have hguarded := ih fun e he => hbounded e (List.mem_append_left _ he)
    have h := hguarded.step hids hstep
      (hbounded e (List.mem_append_right _ (List.mem_singleton_self e)))
    rw [show (fun i => standing i (es ++ [e])) = fun i => follow i (standing i es) e from
      funext fun i => standing_append i es e]
    exact h

/-! ## Lost leases

A sweeper whose extension was refused or has failed goes on with its sweep, and it is the program
that must not send then. This is read off the standing: it says whether the sweeper may still send
for the task that it holds, and nothing but a claim makes it so again. -/

/-- A sweeper that may not send does not, and it may not until it claims a task. -/
theorem Step.not_maySend (hstep : Step S pace c e c')
    (hobeys : (c.hands i).Obeys (S.scheduler i) st) (hst : st.maySend = false)
    (hclaim : ∀ d, e = .by_ i d → d.isClaim = false) :
    (follow i st e).maySend = false ∧ ∀ d, e = .by_ i d → d.isSend = false := by
  rcases hstep.hand_cases i with ⟨d, rfl, hhand, _⟩ | ⟨_, hother, hfollow⟩
  · rw [follow_by_self]
    generalize c.hands i = hand at hhand hobeys
    generalize c'.hands i = hand' at hhand
    -- a send is started only where the standing has a deadline
    have hsend : d.isSend = false := by
      cases hhand with
      | launches =>
        cases hobeys.1 with
        | fanOut _ _ => cases hst
      | starts _ _ =>
        cases hobeys.1 with
        | fanOut _ _ => cases hst
      | _ => rfl
    -- and no answer gives one, except that of an extension, which is not asked for again
    refine ⟨?_, fun d' hd => by cases hd; exact hsend⟩
    cases d with
    | asks r answer =>
      have hturns := hhand.turns hobeys
      have hunclaimed := hclaim _ rfl
      generalize st.turn (.asks r answer) = st' at hturns
      cases hturns with
      | told _ _ => cases st <;> first | rfl | exact hst
      | claimed _ => cases hunclaimed
      | extended => cases hst
      | refused _ _ => rfl
      | processed _ => rfl
      | retried _ _ => rfl
      | failed _ => rfl
      | _ => exact hst
    | finishes => cases st <;> first | exact hst | cases hst
    | abandons => cases st <;> first | exact hst | cases hst
    | _ => exact hst
  · rw [hfollow]
    exact ⟨hst, fun d hd => absurd hd (hother d)⟩

/-- A sweeper that may not send starts no send until it claims a task. -/
theorem Run.not_maySend {c₁ c₂ : Crew ι} (run : Run S pace c₁ es c₂)
    (hobeys : (c₁.hands i).Obeys (S.scheduler i) st) (hst : st.maySend = false)
    (hclaim : ∀ d, .by_ i d ∈ es → d.isClaim = false) :
    (c₂.hands i).Obeys (S.scheduler i) (es.foldl (follow i) st) ∧
      (es.foldl (follow i) st).maySend = false ∧ ∀ d, .by_ i d ∈ es → d.isSend = false := by
  induction run with
  | nil => exact ⟨hobeys, hst, fun _ h => by cases h⟩
  | @snoc _ _ es e _ hstep ih =>
    obtain ⟨ho, hm, hsend⟩ := ih fun d hd => hclaim d (List.mem_append_left _ hd)
    rw [List.foldl_append]
    obtain ⟨hm', hsend'⟩ := hstep.not_maySend ho hm fun d hd =>
      hclaim d (List.mem_append_right _ (hd ▸ List.mem_singleton_self e))
    refine ⟨hstep.obeys ho, hm', fun d hd => ?_⟩
    rcases List.mem_append.mp hd with hd | hd
    · exact hsend d hd
    · exact hsend' d (List.mem_singleton.mp hd).symm

/-- A sweeper whose lease was not extended may not send. -/
theorem Step.maySend_of_refused {x owner : String} {answer : Except Error Bool}
    (hstep : Step S pace c (.by_ i (.asks (.tasks (.extendLease x owner deadline)) answer)) c')
    (hobeys : (c.hands i).Obeys (S.scheduler i) st) (hne : answer ≠ .ok true) :
    (follow i st (.by_ i (.asks (.tasks (.extendLease x owner deadline)) answer))).maySend =
      false := by
  have hturns := hstep.turns hobeys
  rw [follow_by_self]
  generalize st.turn _ = st' at hturns
  cases hturns with
  | extended => exact absurd rfl hne
  | refused _ _ => rfl

/-! ## A reminder -/

/-- An event. -/
def meeting : Event := ⟨"event", "organisation", "Meeting", .scheduled, .epoch, none, none⟩

/-- Its only participant, who will come. -/
def guest : Participant := ⟨"guest", "event", "organisation", "Guest", "contact", .confirmed⟩

/-- The task to remind the participant. -/
def reminder : Task :=
  { (default : Task) with
    id := "task"
    eventId := "event"
    action := .reminder
    scheduledAt := .first }

/-- What happens when a sweeper claims a task and sends the reminder. -/
def reminds (S : Setting ι) (i : ι) (t : Task) (clock : Nat) : List (Happening ι) :=
  ((S.scheduler i).claimDeeds t (S.wall.elapsed clock) ++
    (S.scheduler i).sendDeeds t meeting guest (S.wall.elapsed clock)).map (.by_ i)

theorem Run.exists_reminds (S : Setting ι) (pace : Crew ι → Nat → Prop) (i : ι) (t : Task)
    (clock : Nat) (hands : ι → Hand) (hidle : hands i = .idle) (haction : t.action = .reminder)
    (hdue : t.scheduledAt ≤ S.wall.elapsed clock)
    (hclaimable : t.isClaimable (S.wall.elapsed clock) = true) :
    ∃ next, Run S pace ⟨clock, .only t, hands⟩ (reminds S i t clock)
      ⟨clock, .only ((S.scheduler i).renewed t (S.wall.elapsed clock)),
        Function.update hands i (.sending ((S.scheduler i).reminderTo meeting guest)
          ((S.scheduler i).sendingTo meeting guest clock) next)⟩ := by
  obtain ⟨next, hgoes⟩ :=
    (S.scheduler i).goes_reminder clock meeting (p := guest) haction rfl hdue hclaimable
  exact ⟨next, Run.of_goes hgoes hidle⟩

omit [DecidableEq ι] in
theorem isBounded_of_mem_reminds {clock : Nat}
    (hlast : (S.scheduler i).sendDeadline (S.wall.elapsed clock) < .last)
    (he : e ∈ reminds S i t clock) : e.IsBounded := by
  have hrounds : ((S.scheduler i).reminderTo meeting guest).rounds < 1 <<< 32 := by
    have hwidth : 0 < max (S.scheduler i).config.fanoutConcurrency 1 :=
      Nat.lt_of_lt_of_le Nat.zero_lt_one (Nat.le_max_right _ 1)
    unfold Batch.rounds
    show (1 + max (S.scheduler i).config.fanoutConcurrency 1 - 1) /
      max (S.scheduler i).config.fanoutConcurrency 1 < 1 <<< 32
    rw [Nat.add_sub_cancel_left, Nat.div_self hwidth]
    decide
  unfold reminds Scheduler.claimDeeds Scheduler.sendDeeds at he
  simp only [List.map_append, List.map_cons, List.map_nil, List.mem_append, List.mem_cons,
    List.not_mem_nil, or_false] at he
  rcases he with (rfl | rfl | rfl | rfl | rfl | rfl) | rfl | rfl | rfl | rfl | rfl | rfl <;>
    first | exact trivial | exact hlast | exact hrounds

omit [DecidableEq ι] in
theorem isBounded_of_mem_refusedDeeds {s : Scheduler}
    (he : e ∈ (s.refusedDeeds t now).map (.by_ i)) : e.IsBounded := by
  unfold Scheduler.refusedDeeds at he
  simp only [List.map_cons, List.map_nil, List.mem_cons, List.not_mem_nil, or_false] at he
  rcases he with rfl | rfl | rfl | rfl | rfl | rfl | rfl <;> exact trivial

/-- What has happened when one sweeper was the first to remind. -/
def firstReminds (S : Setting ι) (i : ι) : List (Happening ι) :=
  .called (.insert reminder) (.ok ()) :: reminds S i reminder 0

/-- A crew in which one sweeper was the first to remind, at a time since then. -/
def afterFirst (S : Setting ι) (i : ι) (clock : Nat)
    (next : List (Participant × Except Error Unit) → Work (Except Error SweepReport)) : Crew ι where
  clock := clock
  tasks := .only ((S.scheduler i).renewed reminder (S.wall.elapsed 0))
  hands := Function.update (fun _ => .idle) i
    (.sending ((S.scheduler i).reminderTo meeting guest)
      ((S.scheduler i).sendingTo meeting guest 0) next)

theorem exists_firstReminds (S : Setting ι) (pace : Crew ι → Nat → Prop) (i : ι) :
    ∃ next, Run S pace start (firstReminds S i) (afterFirst S i 0 next) := by
  have hinsert : Step S pace start (.called (.insert reminder) (.ok ()))
      ⟨0, .only reminder, fun _ => .idle⟩ := .called (.insert reminder) rfl
  have hdue : reminder.scheduledAt ≤ S.wall.elapsed 0 := Instant.first_le_self _
  obtain ⟨next, run⟩ := Run.exists_reminds S pace i reminder 0 (fun _ => .idle) rfl rfl hdue rfl
  exact ⟨next, (Run.single hinsert).append run⟩

omit [DecidableEq ι] in
theorem isBounded_of_mem_firstReminds
    (hlast : (S.scheduler i).sendDeadline (S.wall.elapsed 0) < .last)
    (he : e ∈ firstReminds S i) : e.IsBounded := by
  rcases List.mem_cons.mp he with rfl | he
  · exact trivial
  · exact isBounded_of_mem_reminds hlast he

/-- The send may take as long as its time limit. -/
theorem passed_afterFirst (S : Setting ι) (i : ι)
    (next : List (Participant × Except Error Unit) → Work (Except Error SweepReport)) :
    Step S Punctual (afterFirst S i 0 next) (.passed (S.scheduler i).config.sendTimeout.nanos)
      (afterFirst S i (S.scheduler i).config.sendTimeout.nanos next) := by
  have hpace : Punctual (afterFirst S i 0 next) (S.scheduler i).config.sendTimeout.nanos := by
    intro j
    unfold afterFirst
    by_cases hij : j = i
    · subst hij
      simp only [Function.update_self]
      refine ⟨rfl, fun f hf => ?_⟩
      obtain rfl := List.mem_singleton.mp hf
      show 0 + _ ≤ 0 + min (S.scheduler j).config.sendTimeout.nanos _
      exact Nat.add_le_add_left (Nat.le_min.mpr ⟨Nat.le_refl _, Nat.le_refl _⟩) 0
    · simp only [Function.update_of_ne hij]
      exact rfl
  have hstep := Step.passed (S := S) _ hpace
  rw [show (afterFirst S i 0 next).clock + _ = _ from Nat.zero_add _] at hstep
  exact hstep

/-- Two sweepers that claim tasks for so long, and let a send take a second. -/
def twoSweepers (lease : Span) : Setting Bool where
  wall := .epoch
  scheduler i :=
    ⟨if i then "second" else "first", { claimLease := lease, sendTimeout := .ofSeconds 1 }⟩

theorem twoSweepers_injective (lease : Span) :
    Function.Injective fun i => ((twoSweepers lease).scheduler i).id := by
  have hne : "first" ≠ "second" := by decide
  intro i j h
  cases i <;> cases j
  · rfl
  · exact absurd h hne
  · exact absurd h hne.symm
  · rfl

/-! ## Exclusion -/

/-- The deadline of a sweeper is right now, and its claims are made for no time. -/
def IsDeadline (S : Setting ι) (c : Crew ι) (i : ι) (deadline : Instant) : Prop :=
  (S.scheduler i).config.claimLease.nanos = 0 ∧ S.wall.elapsed c.clock = deadline

omit [DecidableEq ι] in
/-- The deadline of a sweeper that sends comes at its end. -/
theorem Guarded.isDeadline (h : Guarded S standings c)
    (hst : standings i = .covered t now deadline) (hdone : (c.hands i).isDone = false)
    (hlapsed : HasLapsed S c i deadline) : IsDeadline S c i deadline :=
  ⟨hlapsed.1, Instant.le_antisymm (h.elapsed_le hst hdone).1 hlapsed.2⟩

/-- Where a sweeper stands that sends for a task. -/
theorem Run.standing_of_coverage (run : Run S pace start es c) {x : String}
    (h : Crew.coverage i es = some (x, deadline)) :
    ∃ t now, t.id = x ∧ standing i es = .covered t now deadline := by
  rw [run.coverage] at h
  cases hst : standing i es with
  | covered t now deadline' =>
    rw [hst] at h
    cases h
    exact ⟨t, now, rfl, rfl⟩
  | _ =>
    rw [hst] at h
    cases h

/-- **Sending is exclusive.** Any number of sweepers with different names share a store and a
clock, and each runs one sweep at a time; users add tasks and cancel them; the calls, the sends
and the answers come in any order. No time is lost between reckoning a deadline and sending, sends
end by their time limit, and deadlines and rounds stay in bounds. Then

* as long as a sweeper sends for a task – from the extension of its lease until the last send has
  ended – nobody claims the task,
* no two sweepers send for the same task,
* no sweeper sends without an extension that was granted for these sends, and
* one whose extension was refused or has failed starts no send before it claims a task again.

The first two have one exception. If a sweeper makes claims for no time, then the deadline of its
extension is the very instant at which its last send may end, and at that instant the task can be
claimed.

The first two are the guard (`Run.guarded`), where what the standings say is put in terms of the
calls that have happened. The third is the conduct of a sweeper that waits for sends. For the
fourth the run is cut at the extension: what comes after it is a run of a sweeper that may not
send (`Run.not_maySend`). -/
theorem exclusive_sending (hids : Function.Injective fun i => (S.scheduler i).id)
    (run : Run S Punctual start es c) (hbounded : ∀ e ∈ es, e.IsBounded) :
    (∀ i x deadline, coverage i es = some (x, deadline) → (c.hands i).isDone = false →
      ∀ j owner until_ now t c',
        Step S Punctual c (.by_ j (.asks (.tasks (.claim x owner until_ now)) (.ok (some t)))) c' →
          IsDeadline S c i deadline) ∧
    (∀ i j x deadline deadline', i ≠ j →
      coverage i es = some (x, deadline) → (c.hands i).isDone = false →
        coverage j es = some (x, deadline') → (c.hands j).isDone = false →
          IsDeadline S c i deadline ∨ IsDeadline S c j deadline') ∧
    (∀ i batch fan next, c.hands i = .sending batch fan next →
      ∃ x deadline, coverage i es = some (x, deadline)) ∧
    (∀ i x owner deadline answer before during,
      es = before ++ .by_ i (.asks (.tasks (.extendLease x owner deadline)) answer) :: during →
        answer ≠ .ok true → (∀ d, .by_ i d ∈ during → d.isClaim = false) →
          ∀ d, .by_ i d ∈ during → d.isSend = false) := by
  have hguarded := run.guarded hids hbounded
  refine ⟨?_, ?_, ?_, ?_⟩
  · intro i x deadline hcoverage hdone j owner until_ now t c' hstep
    obtain ⟨u, _, rfl, hst⟩ := run.standing_of_coverage hcoverage
    exact hguarded.isDeadline hst hdone (hguarded.hasLapsed_of_claim hst hdone hstep)
  · intro i j x deadline deadline' hij hcoverage hdone hcoverage' hdone'
    obtain ⟨t, _, hid, hst⟩ := run.standing_of_coverage hcoverage
    obtain ⟨u, _, hid', hst'⟩ := run.standing_of_coverage hcoverage'
    exact (hguarded.apart hij hst hdone hst' hdone' (hid.trans hid'.symm)).imp
      (hguarded.isDeadline hst hdone) (hguarded.isDeadline hst' hdone')
  · -- a sweeper that waits for sends stands at a deadline
    intro i batch fan next hhand
    have hobeys := run.obeys i
    rw [hhand] at hobeys
    rw [run.coverage]
    generalize standing i es = st at hobeys
    cases hobeys.1 with
    | fanOut _ _ => exact ⟨_, _, rfl⟩
  · intro i x owner deadline answer before during hes hne hclaim
    rw [hes, List.append_cons] at run
    obtain ⟨c₁, run₁, run₂⟩ := run.split
    obtain ⟨c₀, run₀, hstep⟩ := run₁.last
    have hst := hstep.maySend_of_refused (run₀.obeys i) hne
    exact (run₂.not_maySend (hstep.obeys (run₀.obeys i)) hst hclaim).2.2

/-- While one of two sweepers sends a reminder, nobody claims the task. The other one has tried to,
at the time limit of the send, and its claim was refused. -/
theorem exclusive_sending_of_two :
    ∃ es c deadline until_ now, Run (twoSweepers (.ofSeconds 60)) Punctual start es c ∧
      coverage false es = some ("task", deadline) ∧ (c.hands false).isDone = false ∧
      .by_ true (.asks (.tasks (.claim "task" "second" until_ now)) (.ok none)) ∈ es ∧
      ∀ j owner until_ now t c',
        ¬ Step (twoSweepers (.ofSeconds 60)) Punctual c
          (.by_ j (.asks (.tasks (.claim "task" owner until_ now)) (.ok (some t)))) c' := by
  let S := twoSweepers (.ofSeconds 60)
  let timeout := (S.scheduler false).config.sendTimeout.nanos
  obtain ⟨next, run₁⟩ := exists_firstReminds S Punctual false
  have run₂ := run₁.snoc (passed_afterFirst S false next)
  -- the second sweeper comes when the lease has most of its time before it
  let t := (S.scheduler false).renewed reminder (S.wall.elapsed 0)
  have hheld : t.isClaimable (S.wall.elapsed timeout) = false := by decide
  have hgoes := (S.scheduler true).goes_refused timeout (Instant.first_le_self _) rfl hheld
  have hsecond : Run S Punctual (afterFirst S false timeout next) _ _ := .of_goes hgoes rfl
  have run := run₂.append hsecond
  have hlast : (S.scheduler false).sendDeadline (S.wall.elapsed 0) < .last := by decide
  have hbounded : ∀ e ∈ (firstReminds S false ++ [.passed timeout]) ++
      ((S.scheduler true).refusedDeeds t (S.wall.elapsed timeout)).map (.by_ true),
      e.IsBounded := by
    intro e he
    rcases List.mem_append.mp he with he | he
    · rcases List.mem_append.mp he with he | he
      · exact isBounded_of_mem_firstReminds hlast he
      · obtain rfl := List.mem_singleton.mp he
        exact trivial
    · exact isBounded_of_mem_refusedDeeds he
  have hlease : (S.scheduler false).config.claimLease.nanos ≠ 0 := by decide
  have hrefused := (S.scheduler true).claim_mem_refusedDeeds t (S.wall.elapsed timeout)
  refine ⟨_, _, _, _, _, run, rfl, rfl, List.mem_append_right _ (List.mem_map_of_mem hrefused),
    fun j owner until_ now u c' hstep => hlease ?_⟩
  · have hexclusive := (exclusive_sending (twoSweepers_injective _) run hbounded).1
    exact (hexclusive false "task" _ rfl rfl j owner until_ now u c' hstep).1

/-- **If claims are made for no time, two sweepers can send the same reminder at the same time.**

So the exception of `exclusive_sending` is needed. The first send takes as long as its limit
allows, which is as long as the lease was extended by. At that time the second sweeper finds the
lease over and begins to send, while the first send may still be under way. -/
theorem exists_both_sending :
    (Function.Injective fun i => ((twoSweepers .zero).scheduler i).id) ∧
      ∃ es c, Run (twoSweepers .zero) Punctual start es c ∧ (∀ e ∈ es, e.IsBounded) ∧
        ∀ i, ∃ deadline batch fan next, coverage i es = some ("task", deadline) ∧
          c.hands i = .sending batch fan next ∧ fan.flying ≠ [] := by
  refine ⟨twoSweepers_injective _, ?_⟩
  let S := twoSweepers .zero
  let timeout := (S.scheduler false).config.sendTimeout.nanos
  obtain ⟨next, run₁⟩ := exists_firstReminds S Punctual false
  -- at its time limit the send has not ended yet, and the lease is over
  have run₂ := run₁.snoc (passed_afterFirst S false next)
  let t := (S.scheduler false).renewed reminder (S.wall.elapsed 0)
  have hclaimable : t.isClaimable (S.wall.elapsed timeout) = true := by decide
  obtain ⟨next', run₃⟩ := Run.exists_reminds S Punctual true t timeout
    (afterFirst S false timeout next).hands rfl rfl (Instant.first_le_self _) hclaimable
  have hlast : (S.scheduler false).sendDeadline (S.wall.elapsed 0) < .last := by decide
  have hlast' : (S.scheduler true).sendDeadline (S.wall.elapsed timeout) < .last := by decide
  refine ⟨_, _, run₂.append run₃, fun e he => ?_, fun i => ?_⟩
  · rcases List.mem_append.mp he with he | he
    · rcases List.mem_append.mp he with he | he
      · exact isBounded_of_mem_firstReminds hlast he
      · obtain rfl := List.mem_singleton.mp he
        exact trivial
    · exact isBounded_of_mem_reminds hlast' he
  · cases i with
    | false => exact ⟨_, _, _, _, rfl, rfl, List.cons_ne_nil _ _⟩
    | true => exact ⟨_, _, _, _, rfl, rfl, List.cons_ne_nil _ _⟩

end Crew

end Gathering
