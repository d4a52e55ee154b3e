import Gathering.Proofs.Crew.Conduct
import Gathering.Proofs.Crew.Solo
import Gathering.Proofs.Scheduler.Making
import Gathering.Proofs.Store.Finality
import Mathlib.Data.Fintype.Card

/-!
# The retry budget of a crew

A sweeper decides from the task as it was when it was claimed whether there is
another attempt. Until it asks for one, others may have claimed the task and
failed as well, because its lease may be over, and a task that nobody holds can
be released by anybody. So the number of failed attempts can pass what the task
allows.

By how much depends on the number of sweepers. A sweeper is **armed** for a task
if it holds it and has seen another attempt left; it asks for one attempt and is
armed no more. A claim arms a sweeper only if there are two attempts left, and
so the failed attempts of a pending task and the armed sweepers together stay two
below what the task allows and the number of sweepers (`Budgeted`).

A crew of one or two keeps the budget, therefore. Three do not: all of them claim
the task before the first of them fails.

## What is counted

The count of failed attempts in the store is not what a sweeper decides by, and this
is the only reason why it can go too far. Each sweeper that is armed will add one to
it at most, whatever becomes of the task meanwhile. So what matters is how many are
armed at a time: one more with each claim, if the task that was claimed has two
attempts left, and never more than there are sweepers.

The bound holds without any assumption on the lengths of leases, on the pace of
time, or on the names of the sweepers.
-/

namespace Gathering

/-- Whether the sweeper holds a task and has seen another attempt left. -/
def Standing.arms (x : String) (st : Standing) : Bool :=
  st.task?.any fun t => t.id = x && !t.isLastAttempt

namespace Crew

open TaskStore

variable {ι : Type} [DecidableEq ι] {S : Setting ι} {pace : Crew ι → Nat → Prop} {c c' : Crew ι}
  {e : Happening ι} {es : List (Happening ι)} {i j : ι} {st : Standing} {t : Task} {x : String}

/-! ## What is armed

A sweeper is armed by a claim, stays armed while it executes the task, and is disarmed when it
settles the task, whether this has any effect or not. -/

theorem Step.isFiled (hstep : Step S pace c e c') (h : IsFiled c.tasks) : IsFiled c'.tasks := by
  intro y t' ht'
  rcases hstep.moves y with ⟨entry, _, hmoves⟩ | ⟨_, htasks⟩
  · rw [ht'] at hmoves
    exact hmoves.id_eq (h y)
  · rw [htasks] at ht'
    exact h y t' ht'

/-- Who claims a task gets the task as it is stored from then on. -/
theorem Step.find?_of_claim {owner : String} {until_ now : Instant}
    (hstep : Step S pace c
      (.by_ i (.asks (.tasks (.claim x owner until_ now)) (.ok (some t)))) c') :
    c'.tasks.find? x = some t := by
  rcases hstep.moves x with ⟨entry, hentry, hmoves⟩ | ⟨hentry, _⟩
  · cases hentry
    generalize c.tasks.find? x = row at hmoves
    generalize c'.tasks.find? x = row' at hmoves ⊢
    cases hmoves with
    | kept h => simp [Entry.changes] at h
    | claimed _ => rfl
  · cases hentry

/-- **A sweeper is armed by a claim only.** -/
theorem Step.arms_cases (hstep : Step S pace c e c')
    (hobeys : (c.hands i).Obeys (S.scheduler i) st) (harms : (follow i st e).arms x = true) :
    st.arms x = true ∨ ∃ y owner until_ now t,
      e = .by_ i (.asks (.tasks (.claim y owner until_ now)) (.ok (some t))) ∧
        t.id = x ∧ t.isLastAttempt = false := by
  rcases hstep.hand_cases i with ⟨d, rfl, hhand, _⟩ | ⟨_, _, hfollow⟩
  · rw [follow_by_self] at harms
    cases d with
    | asks r answer =>
      have hturns := hhand.turns hobeys
      generalize st.turn (.asks r answer) = st' at hturns harms
      cases hturns with
      | told _ _ => cases st <;> exact .inl harms
      | claimed t =>
        change (decide (t.id = x) && !t.isLastAttempt) = true at harms
        rw [Bool.and_eq_true, decide_eq_true_eq, Bool.not_eq_true'] at harms
        exact .inr ⟨_, _, _, _, t, rfl, harms⟩
      | processed _ => cases harms
      | retried _ _ => cases harms
      | failed _ => cases harms
      | _ => exact .inl harms
    | finishes => cases st <;> exact .inl harms
    | abandons => cases st <;> exact .inl harms
    | _ => exact .inl harms
  · rw [hfollow] at harms
    exact .inl harms

/-- **Who asks for another attempt was armed and is armed no more.** -/
theorem Step.arms_of_retry {owner error : String} {answer : Except Error (Option Nat)}
    (hstep : Step S pace c (.by_ i (.asks (.tasks (.incrementRetries x owner error)) answer)) c')
    (hobeys : (c.hands i).Obeys (S.scheduler i) st) :
    st.arms x = true ∧
      (follow i st (.by_ i (.asks (.tasks (.incrementRetries x owner error)) answer))).arms x =
        false := by
  have hturns := hstep.turns hobeys
  rw [follow_by_self]
  generalize st.turn _ = st' at hturns
  cases hturns with
  | @retried t renewed now error h _ =>
    refine ⟨?_, rfl⟩
    show (decide (t.id = t.id) && !t.isLastAttempt) = true
    rw [h, decide_eq_true rfl]
    rfl

/-! ## The invariant

That at most all sweepers are armed is what a claim needs, where it arms one; all other steps arm
nobody, and the only one that adds to the count disarms the sweeper that takes it. -/

variable [Fintype ι] {standings : ι → Standing}

/-- The sweepers that are armed for a task. -/
def armed (x : String) (standings : ι → Standing) : Finset ι :=
  Finset.univ.filter fun i => (standings i).arms x

omit [DecidableEq ι] in
theorem mem_armed : i ∈ armed x standings ↔ (standings i).arms x = true := by
  simp [armed]

/-- **The budget of a task**: the failed attempts of a pending task and the sweepers that are
armed for it, where they stand like this.

For one sweeper the bound says that a pending task has an attempt left, also when the sweeper that
is armed has failed. Each further sweeper can add one. -/
structure Budgeted (x : String) (standings : ι → Standing) (c : Crew ι) : Prop where
  /-- Every task is stored under its identifier. -/
  filed : IsFiled c.tasks
  /-- A sweeper is armed for a task that is stored. -/
  stored : c.tasks.find? x = none → armed x standings = ∅
  /-- The budget is kept up to the number of sweepers. -/
  within : ∀ t, c.tasks.find? x = some t → t.status = .pending →
    t.retries + (armed x standings).card + 2 ≤ t.maxRetries + max (Fintype.card ι) 1

/-- Unless a claim has armed a sweeper, no more are armed than before. -/
theorem Step.armed_subset (hstep : Step S pace c e c')
    (hobeys : ∀ i, (c.hands i).Obeys (S.scheduler i) (standings i))
    (hclaim : ∀ i y owner until_ now t,
      e = .by_ i (.asks (.tasks (.claim y owner until_ now)) (.ok (some t))) →
        t.id = x → t.isLastAttempt = true) :
    armed x (fun i => follow i (standings i) e) ⊆ armed x standings := by
  intro i hi
  rw [mem_armed] at hi ⊢
  rcases hstep.arms_cases (hobeys i) hi with h | ⟨y, owner, until_, now, t, he, hid, hleft⟩
  · exact h
  · rw [hclaim i y owner until_ now t he hid] at hleft
    cases hleft

/-- Unless the task was claimed, no more are armed for it than before. -/
theorem Step.card_armed_le (hstep : Step S pace c e c') (hfiled : IsFiled c'.tasks)
    (hobeys : ∀ i, (c.hands i).Obeys (S.scheduler i) (standings i))
    (hclaims : ∀ entry, e.entry? (S.wall.elapsed c.clock) = some entry → entry.claims x = false) :
    (armed x fun i => follow i (standings i) e).card ≤ (armed x standings).card := by
  refine Finset.card_le_card (hstep.armed_subset hobeys fun i y owner until_ now t he hid => ?_)
  subst he
  -- the task that was given to the sweeper is the one that it claimed
  obtain rfl := (hfiled y t hstep.find?_of_claim).symm.trans hid
  have h := hclaims _ rfl
  simp [Entry.claims] at h

theorem Step.card_armed_of_retry {owner error : String} {answer : Except Error (Option Nat)}
    (hstep : Step S pace c (.by_ i (.asks (.tasks (.incrementRetries x owner error)) answer)) c')
    (hobeys : ∀ i, (c.hands i).Obeys (S.scheduler i) (standings i)) :
    (armed x (fun j => follow j (standings j)
      (.by_ i (.asks (.tasks (.incrementRetries x owner error)) answer)))).card + 1 ≤
      (armed x standings).card := by
  obtain ⟨hbefore, hafter⟩ := hstep.arms_of_retry (hobeys i)
  have hmem : i ∈ armed x standings := mem_armed.mpr hbefore
  rw [← Finset.card_erase_add_one hmem]
  refine Nat.add_le_add_right (Finset.card_le_card fun j hj => ?_) 1
  rw [Finset.mem_erase]
  refine ⟨fun hji => ?_, hstep.armed_subset hobeys (fun _ _ _ _ _ _ he => by cases he) hj⟩
  rw [mem_armed, hji, hafter] at hj
  cases hj

/-- No sweeper is armed for a task that is not stored. -/
theorem Budgeted.stored_step (h : Budgeted x standings c) (hstep : Step S pace c e c')
    (hobeys : ∀ i, (c.hands i).Obeys (S.scheduler i) (standings i))
    (hnone : c'.tasks.find? x = none) : (armed x fun i => follow i (standings i) e) = ∅ := by
  have hbefore : c.tasks.find? x = none := by
    rcases hstep.moves x with ⟨entry, _, hmoves⟩ | ⟨_, htasks⟩
    · cases hrow : c.tasks.find? x with
      | none => rfl
      | some t =>
        rw [hrow, hnone] at hmoves
        obtain ⟨_, hu, _⟩ := hmoves.origin
        cases hu
    · rw [← htasks, hnone]
  rw [← Finset.subset_empty, ← h.stored hbefore]
  refine hstep.armed_subset hobeys fun i y owner until_ now t he hid => ?_
  subst he
  have hfind := hstep.find?_of_claim
  obtain rfl := (hstep.isFiled h.filed y t hfind).symm.trans hid
  rw [hnone] at hfind
  cases hfind

/-- **A claim keeps the budget.** It arms a sweeper only if two attempts are left, and then all
sweepers may be armed. -/
theorem Budgeted.claim (h : Budgeted x standings c) {t' : Task} {owner : String}
    {until_ now : Instant} (hobeys : ∀ i, (c.hands i).Obeys (S.scheduler i) (standings i))
    (hstep : Step S pace c (.by_ i (.asks (.tasks (.claim x owner until_ now)) (.ok (some t')))) c')
    (hrow : c.tasks.find? x = some t) (hclaim : t.claim? owner until_ now = some t') :
    t'.retries + (armed x fun j => follow j (standings j)
        (.by_ i (.asks (.tasks (.claim x owner until_ now)) (.ok (some t'))))).card + 2 ≤
      t'.maxRetries + max (Fintype.card ι) 1 := by
  obtain ⟨hclaimable, hsame⟩ := Task.claim?_eq_some_iff.mp hclaim
  have hwithin := h.within t hrow (Task.isClaimable_iff.mp hclaimable).1
  have hretries : t'.retries = t.retries := by rw [hsame]
  have hattempts : t'.maxRetries = t.maxRetries := by rw [hsame]
  -- the last attempt arms nobody, and with one left before it there is room for all
  by_cases hlast : t'.isLastAttempt = true
  · have hcard := Finset.card_le_card
      (hstep.armed_subset (x := x) hobeys fun j y owner until_ now u he _ => by
        cases he
        exact hlast)
    omega
  · have hleft : t'.retries + 1 < t'.maxRetries := by
      unfold Task.isLastAttempt at hlast
      rw [decide_eq_true_eq] at hlast
      omega
    have hall := Finset.card_le_univ (armed x fun j => follow j (standings j)
      (.by_ i (.asks (.tasks (.claim x owner until_ now)) (.ok (some t')))))
    omega

/-- **What happens keeps the budget**, if the task is one that was made.

By the ways in which the step can move the task. Three of them are settlements, after which it is
not pending; the others leave the count as it is, except that of a failed attempt. -/
theorem Budgeted.step (h : Budgeted x standings c) (hstep : Step S pace c e c')
    (hobeys : ∀ i, (c.hands i).Obeys (S.scheduler i) (standings i))
    (hmade : ∀ t, e = .called (.insert t) (.ok ()) → t.id = x → t.IsMade) :
    Budgeted x (fun i => follow i (standings i) e) c' := by
  have hfiled := hstep.isFiled h.filed
  refine ⟨hfiled, h.stored_step hstep hobeys, fun t' ht' hpending => ?_⟩
  rcases hstep.moves x with ⟨entry, hentry, hmoves⟩ | ⟨hentry, htasks⟩
  · -- unless the task is claimed, no more are armed afterwards
    have hcard : entry.claims x = false →
        (armed x fun i => follow i (standings i) e).card ≤ (armed x standings).card := by
      intro hclaims
      refine hstep.card_armed_le hfiled hobeys fun entry' hentry' => ?_
      rw [hentry] at hentry'
      cases hentry'
      exact hclaims
    rw [ht'] at hmoves
    generalize hrow : c.tasks.find? x = row at hmoves
    cases hmoves with
    | kept hchanges =>
      have hcard := hcard (Entry.claims_eq_false hchanges)
      have hwithin := h.within t' hrow hpending
      omega
    | inserted hid =>
      have hmade' : t'.IsMade := by
        rcases Happening.cases_of_entry? hentry with ⟨i, rfl⟩ | he
        · -- sweepers add no tasks
          have hturns := hstep.turns (hobeys i)
          generalize (standings i).turn _ = st' at hturns
          generalize standings i = st at hturns
          cases hturns
        · exact hmade t' he hid
      -- a task that was made has not been tried, and nobody is armed for it yet
      obtain ⟨_, hretries, hattempts⟩ := hmade'.fresh
      have hcard := hcard rfl
      rw [h.stored hrow, Finset.card_empty] at hcard
      omega
    | claimed hclaim =>
      rcases Happening.cases_of_entry? hentry with ⟨i, rfl⟩ | rfl
      · exact h.claim hobeys hstep hrow hclaim
      · cases hstep.isUsers
    | @extended _ _ _ t _ hextend =>
      obtain ⟨hholds, rfl⟩ := Task.extendLease?_eq_some_iff.mp hextend
      have hwithin := h.within t hrow (Task.isHeldBy_iff.mp hholds).1
      have hcard := hcard rfl
      show t.retries + _ + 2 ≤ t.maxRetries + _
      omega
    | @retried _ _ _ t _ hretry =>
      obtain ⟨hsettle, rfl⟩ := Task.failedAttempt?_eq_some_iff.mp hretry
      have hwithin := h.within t hrow (Task.isSettleableBy_iff.mp hsettle).1
      rcases Happening.cases_of_entry? hentry with ⟨i, rfl⟩ | rfl
      · -- one more has failed, and one less is armed
        have hcard := hstep.card_armed_of_retry hobeys
        show t.retries + 1 + _ + 2 ≤ t.maxRetries + _
        omega
      · cases hstep.isUsers
    | processed hsettle =>
      obtain ⟨_, rfl⟩ := Task.process?_eq_some_iff.mp hsettle
      cases hpending
    | failed hsettle =>
      obtain ⟨_, rfl⟩ := Task.fail?_eq_some_iff.mp hsettle
      cases hpending
    | skipped hskip =>
      obtain ⟨_, rfl⟩ := Task.skip?_eq_some_iff.mp hskip
      cases hpending
  · have hcard := hstep.card_armed_le (x := x) hfiled hobeys fun entry hentry' => by
      rw [hentry] at hentry'
      cases hentry'
    rw [htasks] at ht'
    have hwithin := h.within t' ht' hpending
    omega

theorem Run.budgeted (run : Run S pace start es c)
    (hmade : ∀ t, .called (.insert t) (.ok ()) ∈ es → t.id = x → t.IsMade) :
    Budgeted x (fun i => standing i es) c := by
  induction run with
  | nil =>
    refine ⟨fun y t ht => ?_, fun _ => ?_, fun t ht => ?_⟩
    · cases ht
    · refine Finset.filter_eq_empty_iff.mpr fun i _ h => ?_
      cases h
    · cases ht
  | @snoc _ _ es e run hstep ih =>
    have hbudgeted := ih fun t ht => hmade t (List.mem_append_left _ ht)
    rw [show (fun i => standing i (es ++ [e])) = fun i => follow i (standing i es) e from
      funext fun i => standing_append i es e]
    refine hbudgeted.step hstep run.obeys fun t he => hmade t (List.mem_append_right _ ?_)
    rw [he]
    exact List.mem_singleton_self _

/-- **How far a crew overdraws the budget of a task** at most: by one attempt less than it allows if
there is one sweeper, and by as many more as there are more sweepers. -/
theorem Run.retries_add_two_le (run : Run S pace start es c)
    (hmade : ∀ t, .called (.insert t) (.ok ()) ∈ es → t.id = x → t.IsMade)
    (ht : c.tasks.find? x = some t) (hpending : t.status = .pending) :
    t.retries + 2 ≤ t.maxRetries + max (Fintype.card ι) 1 := by
  have h := (run.budgeted hmade).within t ht hpending
  omega

end Crew

end Gathering
