import Gathering.Proofs.Store.Finality
import Gathering.Proofs.Time.Order

/-!
# Tenures

A sweeper that has claimed a task **holds** it until the task is claimed again,
released, or finished; that is its tenure. The calls are made with clocks that
nobody checks, so a tenure says nothing about when its calls were made. It says
what was promised: the next claim, whoever makes it and whatever it takes the
time to be, is not before any deadline that the holder was given.

The invariant is `Task.HeldUntil`: as long as the task is pending it is claimed
by the holder until a deadline or longer. A finished task satisfies it for lack
of anything to hold, which is right, since it is not claimed again either.
Every entry keeps the invariant except a claim and a release
(`Entry.Moves.heldUntil`), and every deadline given to the holder is one until
which the task is held from then on (`Entry.Moves.heldUntil_of_grants`).
-/

namespace Gathering

/-- **The task is held until a deadline or longer**, as long as it is pending. -/
def Task.HeldUntil (owner : String) (deadline : Instant) (t : Task) : Prop :=
  t.status = .pending →
    t.claimedBy = some owner ∧ ∃ d, t.claimedUntil = some d ∧ deadline ≤ d

/-- A lease that is extended lasts at least until the new deadline. -/
theorem Task.le_laterDeadline (t : Task) (deadline : Instant) :
    deadline ≤ t.laterDeadline deadline := by
  unfold laterDeadline
  cases t.claimedUntil with
  | none => exact Instant.le_refl _
  | some held =>
    show deadline ≤ if held < deadline then deadline else held
    split
    · exact Instant.le_refl _
    · next h => exact Instant.not_lt.mp h

theorem Task.claimedUntil_le_laterDeadline {t : Task} {held : Instant} (deadline : Instant)
    (h : t.claimedUntil = some held) : held ≤ t.laterDeadline deadline := by
  unfold laterDeadline
  rw [h]
  show held ≤ if held < deadline then deadline else held
  split
  · next h => exact Instant.le_of_lt h
  · exact Instant.le_refl _

namespace TaskStore

variable {x owner : String} {deadline now : Instant} {e : Entry} {t t' : Task}

namespace Entry

/-- Whether a call has claimed the task of an identifier. -/
def claims (x : String) : Entry → Bool
  | ⟨_, .claim id _ _ _, .ok (some _)⟩ => id = x
  | _ => false

/-- Whether a call has recorded a failed attempt of a task and so released it. -/
def releases (x : String) : Entry → Bool
  | ⟨_, .incrementRetries id _ _, .ok (some _)⟩ => id = x
  | _ => false

/-- **Whether a call ends the tenure of whoever holds a task.** -/
def endsTenure (x : String) (e : Entry) : Bool :=
  e.claims x || e.releases x || e.finishes x

/-- A successful claim of a task by a sweeper. -/
def Claims (x owner : String) (deadline now : Instant) (e : Entry) : Prop :=
  ∃ at_ t, e = ⟨at_, .claim x owner deadline now, .ok (some t)⟩

/-- **A deadline that is given to a sweeper**: with its claim, or when its lease is extended. -/
inductive Grants (x owner : String) (deadline : Instant) : Entry → Prop
  /-- The task was claimed. -/
  | claim {at_ now : Instant} {t : Task} :
      Grants x owner deadline ⟨at_, .claim x owner deadline now, .ok (some t)⟩
  /-- The lease was extended. -/
  | extension {at_ : Instant} :
      Grants x owner deadline ⟨at_, .extendLease x owner deadline, .ok true⟩

theorem claims_eq_false (h : e.changes x = false) : e.claims x = false := by
  unfold claims
  split
  · exact h
  · rfl

/-- **Only a claim and a release take a task from its holder.**

An extension of the lease can only be that of the holder, and the new deadline is not before the
old one. A task that was finished is not pending any more. -/
theorem Moves.heldUntil (h : Moves x e (some t) (some t')) (hclaims : e.claims x = false)
    (hreleases : e.releases x = false) (hheld : t.HeldUntil owner deadline) :
    t'.HeldUntil owner deadline := by
  cases h with
  | kept _ => exact hheld
  | claimed _ => simp [claims] at hclaims
  | retried _ => simp [releases] at hreleases
  | extended h =>
    obtain ⟨hholds, rfl⟩ := Task.extendLease?_eq_some_iff.mp h
    obtain ⟨hpending, _⟩ := Task.isHeldBy_iff.mp hholds
    obtain ⟨hby, d, hd, hle⟩ := hheld hpending
    exact fun _ => ⟨hby, _, rfl, Instant.le_trans hle (t.claimedUntil_le_laterDeadline _ hd)⟩
  | processed h =>
    obtain ⟨_, rfl⟩ := Task.process?_eq_some_iff.mp h
    exact nofun
  | failed h =>
    obtain ⟨_, rfl⟩ := Task.fail?_eq_some_iff.mp h
    exact nofun
  | skipped h =>
    obtain ⟨_, rfl⟩ := Task.skip?_eq_some_iff.mp h
    exact nofun

/-- **A deadline that is given is kept**: from then on the task is held until it. -/
theorem Moves.heldUntil_of_grants {row : Option Task} (h : Moves x e row (some t'))
    (hgrants : e.Grants x owner deadline) : t'.HeldUntil owner deadline := by
  cases hgrants with
  | claim =>
    cases h with
    | kept h => simp [changes] at h
    | claimed h =>
      obtain ⟨_, rfl⟩ := Task.claim?_eq_some_iff.mp h
      exact fun _ => ⟨rfl, _, rfl, Instant.le_refl _⟩
  | extension =>
    cases h with
    | kept h => simp [changes] at h
    | extended h =>
      obtain ⟨hholds, rfl⟩ := Task.extendLease?_eq_some_iff.mp h
      obtain ⟨_, hby⟩ := Task.isHeldBy_iff.mp hholds
      exact fun _ => ⟨hby, _, rfl, Task.le_laterDeadline _ _⟩

theorem Moves.isSome_of_grants {row row' : Option Task} (h : Moves x e row row')
    (hgrants : e.Grants x owner deadline) : ∃ t', row' = some t' := by
  cases hgrants with
  | claim =>
    cases h with
    | kept h => simp [changes] at h
    | claimed h => exact ⟨_, rfl⟩
  | extension =>
    cases h with
    | kept h => simp [changes] at h
    | extended h => exact ⟨_, rfl⟩

/-- A held task is claimed again only when its deadline is over. The claimant is the same or
another one: a holder who claims again has to wait as well. -/
theorem Moves.le_of_claims {row : Option Task} {other : String} {until_ : Instant}
    (h : Moves x e (some t) row) (hclaims : e.Claims x other until_ now)
    (hheld : t.HeldUntil owner deadline) : deadline ≤ now := by
  obtain ⟨at_, u, rfl⟩ := hclaims
  cases h with
  | kept h => simp [changes] at h
  | claimed h =>
    obtain ⟨hclaim, _⟩ := Task.claim?_eq_some_iff.mp h
    obtain ⟨hpending, hover⟩ := Task.isClaimable_iff.mp hclaim
    obtain ⟨_, d, hd, hle⟩ := hheld hpending
    exact Instant.le_trans hle (Instant.not_lt.mp (hover d hd))

/-- **The lease of a held task is extended by its holder only.** -/
theorem Moves.eq_of_extension {row : Option Task} {other : String} {until_ : Instant}
    (h : Moves x ⟨now, .extendLease x other until_, .ok true⟩ (some t) row)
    (hheld : t.HeldUntil owner deadline) : other = owner := by
  cases h with
  | kept h => simp [changes] at h
  | extended h =>
    obtain ⟨hholds, _⟩ := Task.extendLease?_eq_some_iff.mp h
    obtain ⟨hpending, hby⟩ := Task.isHeldBy_iff.mp hholds
    rw [(hheld hpending).1] at hby
    exact (Option.some.inj hby).symm

/-- **A held task is released by its holder only.** -/
theorem Moves.eq_of_release {row : Option Task} {other error : String} {n : Nat}
    (h : Moves x ⟨now, .incrementRetries x other error, .ok (some n)⟩ (some t) row)
    (hheld : t.HeldUntil owner deadline) : other = owner := by
  cases h with
  | kept h => simp [changes] at h
  | retried h =>
    obtain ⟨hsettle, _⟩ := Task.failedAttempt?_eq_some_iff.mp h
    obtain ⟨hpending, hby⟩ := Task.isSettleableBy_iff.mp hsettle
    exact (hby owner (hheld hpending).1).symm

end Entry

/-! ## Along a tenure

The invariant holds from the first grant on and is kept by every call of the tenure. That it
outlives the end of the task is a convenience: a stretch of calls is then cut at claims and
releases only, and whether somebody has finished the task in between need not be known. -/

/-- **A held task stays held** through all calls that are neither a claim nor a release. -/
theorem History.heldUntil {s s' : TaskStore} {entries : List Entry} (h : History s entries s')
    (hbetween : ∀ e ∈ entries, e.claims x = false ∧ e.releases x = false)
    (ht : s.find? x = some t) (hheld : t.HeldUntil owner deadline) :
    ∃ t', s'.find? x = some t' ∧ t'.HeldUntil owner deadline := by
  induction h generalizing t with
  | nil s => exact ⟨t, ht, hheld⟩
  | @cons s s' e entries answered rest ih =>
    have hmoves := moves_of_answered x answered
    rw [ht] at hmoves
    obtain ⟨u, hu, _⟩ := hmoves.origin
    rw [hu] at hmoves
    obtain ⟨hclaims, hreleases⟩ := hbetween e List.mem_cons_self
    exact ih (fun e he => hbetween e (List.mem_cons_of_mem _ he)) hu
      (hmoves.heldUntil hclaims hreleases hheld)

/-- Whatever deadline was given in a stretch of calls without a release, and without a claim after
the first call, the task is held until it at the end.

The stretch is cut where the deadline was given, and the task is held until it from there on. -/
theorem History.heldUntil_of_grants {s s' : TaskStore} {first : Entry} {between : List Entry}
    (h : History s (first :: between) s')
    (hbetween : ∀ e ∈ between, e.claims x = false ∧ e.releases x = false)
    (hmem : e ∈ first :: between) (hgrants : e.Grants x owner deadline) :
    ∃ t, s'.find? x = some t ∧ t.HeldUntil owner deadline := by
  -- cut the history behind the call that gave the deadline
  obtain ⟨early, late, hcut⟩ := List.append_of_mem hmem
  rw [hcut] at h
  obtain ⟨s₁, _, hlate⟩ := h.split
  have hafter : ∀ e ∈ late, e.claims x = false ∧ e.releases x = false := by
    intro e he
    cases early with
    | nil =>
      rw [List.nil_append] at hcut
      obtain ⟨_, rfl⟩ := List.cons.inj hcut
      exact hbetween e he
    | cons _ early =>
      obtain ⟨_, rfl⟩ := List.cons.inj hcut
      exact hbetween e (List.mem_append_right _ (List.mem_cons_of_mem _ he))
  cases hlate with
  | cons answered rest =>
    have hmoves := moves_of_answered x answered
    obtain ⟨t, ht⟩ := hmoves.isSome_of_grants hgrants
    rw [ht] at hmoves
    exact rest.heldUntil hafter ht (hmoves.heldUntil_of_grants hgrants)

theorem History.pending {s s' : TaskStore} {entries : List Entry} (h : History s entries s')
    (hfinishes : ∀ e ∈ entries, e.finishes x = false) (ht : s.find? x = some t)
    (hpending : t.status = .pending) : ∃ t', s'.find? x = some t' ∧ t'.status = .pending := by
  obtain ⟨t', ht', _, _, hcount⟩ := h.task ht
  refine ⟨t', ht', Decidable.byContradiction fun hdone => ?_⟩
  rw [if_pos ⟨hpending, hdone⟩] at hcount
  have hnone : timesFinished x entries = 0 := by
    unfold timesFinished
    rw [List.countP_eq_zero]
    intro e he
    rw [hfinishes e he]
    exact Bool.false_ne_true
  omega

/-- **Nobody but the holder of a task extends its lease or settles it**, and nobody's attempt
changes the store.

Whether the lease is over does not matter: it is the holder's name that is compared, until
somebody else claims the task. -/
theorem refuses_others {s : TaskStore} {other : String} (ht : s.find? x = some t)
    (hby : t.claimedBy = some owner) (hother : other ≠ owner) (now at_ deadline : Instant)
    (error : String) :
    s.respond now (.extendLease x other deadline) = (.ok false, s) ∧
    s.respond now (.markProcessed x other at_) = (.ok false, s) ∧
    s.respond now (.markFailed x other error at_) = (.ok false, s) ∧
    s.respond now (.incrementRetries x other error) = (.ok none, s) := by
  have hheld : ¬ t.isHeldBy other = true := fun h => by
    obtain ⟨_, h⟩ := Task.isHeldBy_iff.mp h
    rw [hby] at h
    exact hother (Option.some.inj h).symm
  have hsettle : ¬ t.isSettleableBy other = true := fun h =>
    hother ((Task.isSettleableBy_iff.mp h).2 owner hby).symm
  unfold respond
  refine ⟨?_, ?_, ?_, ?_⟩
  · simp only [perform, transition_of_refused (·.extendLease? other deadline) ht (if_neg hheld)]
    rfl
  · simp only [perform, transition_of_refused (·.process? other at_) ht (if_neg hsettle)]
    rfl
  · simp only [perform, transition_of_refused (·.fail? other error at_) ht (if_neg hsettle)]
    rfl
  · simp only [perform,
      transition_of_refused (·.failedAttempt? other error now) ht (if_neg hsettle)]
    rfl

/-- A task that was claimed and that nobody has finished since then is pending. -/
theorem History.pending_of_claims {first : Entry} {between : List Entry} {s₁ s₂ : TaskStore}
    (h : History s₁ (first :: between) s₂) (hfirst : first.Claims x owner deadline now)
    (hfinishes : ∀ e ∈ between, e.finishes x = false) :
    ∃ t, s₂.find? x = some t ∧ t.status = .pending := by
  cases h with
  | cons answered rest =>
    have hmoves := moves_of_answered x answered
    obtain ⟨_, _, rfl⟩ := hfirst
    generalize hrow : s₁.find? x = row at hmoves
    generalize hrow' : (s₁.respond _ _).2.find? x = row' at hmoves
    cases hmoves with
    | kept h => simp [Entry.changes] at h
    | claimed hclaim =>
      obtain ⟨hclaimable, rfl⟩ := Task.claim?_eq_some_iff.mp hclaim
      exact rest.pending hfinishes hrow' (Task.isClaimable_iff.mp hclaimable).1

/-- During a tenure the lease is never cut short. -/
theorem History.claimedUntil_le {s s' : TaskStore} {entries : List Entry} {held : Instant}
    (h : History s entries s') (htenure : ∀ e ∈ entries, e.endsTenure x = false)
    (ht : s.find? x = some t) (hpending : t.status = .pending) (hby : t.claimedBy = some owner)
    (hheld : t.claimedUntil = some held) :
    ∃ t' held', s'.find? x = some t' ∧ t'.claimedUntil = some held' ∧ held ≤ held' := by
  have hends : ∀ e ∈ entries, (e.claims x = false ∧ e.releases x = false) ∧
      e.finishes x = false := by
    intro e he
    simpa [Entry.endsTenure] using htenure e he
  have huntil : t.HeldUntil owner held := fun _ => ⟨hby, held, hheld, Instant.le_refl _⟩
  obtain ⟨t', ht', huntil'⟩ := h.heldUntil (fun e he => (hends e he).1) ht huntil
  obtain ⟨u, hu, hupending⟩ := h.pending (fun e he => (hends e he).2) ht hpending
  rw [ht'] at hu
  cases hu
  obtain ⟨_, held', hd, hle⟩ := huntil' hupending
  exact ⟨t', held', ht', hd, hle⟩

/-- **Leases exclude at the store**, with whatever clocks it is called. A task was claimed by a
sweeper, its owner, and since then neither claimed nor released. Then the next claim is not before
any deadline that the owner was given, by the claim itself or by extensions of the lease. And
until the task is finished the owner holds it: its lease is never cut short, and nobody else
extends it or settles the task, nor changes anything by trying.

The time of the next claim is the one that the claimant states. The store has a clock of its own,
and it does not compare the two; so this is about the times that are stated, and a claimant whose
clock is ahead can claim a task earlier than its owner expects. -/
theorem lease_exclusion {first : Entry} {between : List Entry} {s₁ s₂ : TaskStore}
    (h : History s₁ (first :: between) s₂) (hfirst : first.Claims x owner deadline now)
    (hbetween : ∀ e ∈ between, e.claims x = false ∧ e.releases x = false) :
    (∀ next s₃ other until_ now', History s₂ [next] s₃ → next.Claims x other until_ now' →
      ∀ e ∈ first :: between, ∀ d, e.Grants x owner d → d ≤ now') ∧
    ((∀ e ∈ between, e.finishes x = false) →
      ∃ t held, s₂.find? x = some t ∧ t.status = .pending ∧ t.claimedBy = some owner ∧
        t.claimedUntil = some held ∧
        (∀ later s₃, History s₂ later s₃ → (∀ e ∈ later, e.endsTenure x = false) →
          ∃ t' held', s₃.find? x = some t' ∧ t'.claimedUntil = some held' ∧ held ≤ held') ∧
        (∀ other, other ≠ owner → ∀ now' at_ until_ error,
          s₂.respond now' (.extendLease x other until_) = (.ok false, s₂) ∧
          s₂.respond now' (.markProcessed x other at_) = (.ok false, s₂) ∧
          s₂.respond now' (.markFailed x other error at_) = (.ok false, s₂) ∧
          s₂.respond now' (.incrementRetries x other error) = (.ok none, s₂))) := by
  constructor
  · intro next s₃ other until_ now' hnext hclaims e hmem d hgrants
    obtain ⟨t, ht, hheld⟩ := h.heldUntil_of_grants hbetween hmem hgrants
    have hmoves := hnext.moves x
    rw [ht] at hmoves
    exact hmoves.le_of_claims hclaims hheld
  · intro hfinishes
    have hgrants : first.Grants x owner deadline := by
      obtain ⟨_, _, rfl⟩ := hfirst
      exact .claim
    obtain ⟨t, ht, huntil⟩ := h.heldUntil_of_grants hbetween List.mem_cons_self hgrants
    obtain ⟨u, hu, hpending⟩ := h.pending_of_claims hfirst hfinishes
    rw [ht] at hu
    cases hu
    obtain ⟨hby, held, hheld, _⟩ := huntil hpending
    refine ⟨t, held, ht, hpending, hby, hheld, fun later s₃ hlater htenure => ?_, ?_⟩
    · exact hlater.claimedUntil_le htenure ht hpending hby hheld
    · intro other hother now' at_ until_ error
      exact refuses_others ht hby hother now' at_ until_ error

/-- A sweeper claims a task. -/
def claimOfOwner : Entry :=
  ⟨.epoch, .claim "" "owner" .epoch .epoch,
    .ok (some { (default : Task) with claimedBy := some "owner", claimedUntil := some .epoch })⟩

/-- It extends its lease. -/
def extensionOfOwner : Entry := ⟨.epoch, .extendLease "" "owner" .last, .ok true⟩

/-- After that nobody else processes the task. -/
theorem lease_exclusion_of_extended :
    ∃ s₁ s₂, History s₁ [claimOfOwner, extensionOfOwner] s₂ ∧ ∀ other, other ≠ "owner" →
      s₂.respond .epoch (.markProcessed "" other .epoch) = (.ok false, s₂) := by
  let s₁ := (TaskStore.empty.respond .epoch (.insert default)).2
  have h : History s₁ [claimOfOwner, extensionOfOwner] _ := .cons rfl (.single rfl)
  have hbetween : ∀ e ∈ [extensionOfOwner], e.claims "" = false ∧ e.releases "" = false := by
    intro e he
    obtain rfl := List.mem_singleton.mp he
    exact ⟨rfl, rfl⟩
  have hfinishes : ∀ e ∈ [extensionOfOwner], e.finishes "" = false := by
    intro e he
    obtain rfl := List.mem_singleton.mp he
    rfl
  obtain ⟨_, _, _, _, _, _, _, hothers⟩ :=
    (lease_exclusion h ⟨_, _, rfl⟩ hbetween).2 hfinishes
  exact ⟨s₁, _, h, fun other hother => (hothers other hother .epoch .epoch .epoch "").2.1⟩

end TaskStore

end Gathering
