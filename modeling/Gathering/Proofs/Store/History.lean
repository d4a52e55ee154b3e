import Gathering.Store.Tasks

/-!
# Histories of the store of tasks

A store is called by many, in any order, with any arguments. What they see of
it is a **history**: the calls one after the other, each with its answer. Every
sequence of calls has exactly one history (`TaskStore.exists_history`), so what
holds of all histories holds of all uses of the store.

What a call does is said once, as what its entry does to the task of one
identifier (`Entry.Moves`): a call that succeeds turns the task over as its
transition says, and every other call keeps it. The invariants of a history are
read off this relation, case by case, and no proof opens the store again.
-/

namespace Gathering

namespace TaskStore

/-- **The answer to a call, and the store afterwards.** A call that fails leaves the store as it
is. -/
def respond (s : TaskStore) (now : Instant) (call : Call) : Except Error call.Answer × TaskStore :=
  match s.perform now call with
  | .ok (answer, s') => (.ok answer, s')
  | .error e => (.error e, s)

/-- **One call of a history**: when the store was called by its own clock, and what it answered. -/
structure Entry where
  /-- What the store's own clock showed. -/
  at_ : Instant
  /-- The call. -/
  call : Call
  /-- The answer. -/
  answer : Except Error call.Answer

/-- **A history leads from one store to another**: every entry holds the answer that the store
gave when its turn had come. -/
inductive History : TaskStore → List Entry → TaskStore → Prop
  /-- Nothing was called. -/
  | nil (s : TaskStore) : History s [] s
  /-- One call was answered, and the others came after it. -/
  | cons {s s' : TaskStore} {e : Entry} {entries : List Entry}
      (answered : e.answer = (s.respond e.at_ e.call).1)
      (rest : History (s.respond e.at_ e.call).2 entries s') : History s (e :: entries) s'

/-! ## Histories compose

A history can be continued and it can be cut anywhere, which is what the claims about two moments
of a store need. -/

theorem History.single {s : TaskStore} {e : Entry}
    (answered : e.answer = (s.respond e.at_ e.call).1) :
    History s [e] (s.respond e.at_ e.call).2 :=
  .cons answered (.nil _)

theorem History.of_respond {s s' : TaskStore} {now : Instant} {call : Call}
    {answer : Except Error call.Answer} (h : s.respond now call = (answer, s')) :
    History s [⟨now, call, answer⟩] s' := by
  have hanswer : answer = (s.respond now call).1 := by rw [h]
  have hstore : s' = (s.respond now call).2 := by rw [h]
  subst hanswer hstore
  exact .single rfl

theorem History.append {s₁ s₂ s₃ : TaskStore} {entries later : List Entry}
    (h : History s₁ entries s₂) (h' : History s₂ later s₃) : History s₁ (entries ++ later) s₃ := by
  induction h with
  | nil s => exact h'
  | cons answered _ ih => exact .cons answered (ih h')

theorem History.split {s₁ s₃ : TaskStore} {entries later : List Entry}
    (h : History s₁ (entries ++ later) s₃) :
    ∃ s₂, History s₁ entries s₂ ∧ History s₂ later s₃ := by
  induction entries generalizing s₁ with
  | nil => exact ⟨s₁, .nil s₁, h⟩
  | cons e entries ih =>
    cases h with
    | cons answered rest =>
      obtain ⟨s₂, h₁, h₂⟩ := ih rest
      exact ⟨s₂, .cons answered h₁, h₂⟩

/-- **Every sequence of calls has a history.** -/
theorem exists_history (s : TaskStore) (calls : List (Instant × Call)) :
    ∃ entries s', History s entries s' ∧ entries.map (fun e => (e.at_, e.call)) = calls := by
  induction calls generalizing s with
  | nil => exact ⟨[], s, .nil s, rfl⟩
  | cons c calls ih =>
    obtain ⟨now, call⟩ := c
    obtain ⟨entries, s', h, hcalls⟩ := ih (s.respond now call).2
    refine ⟨⟨now, call, (s.respond now call).1⟩ :: entries, s', .cons rfl h, ?_⟩
    rw [List.map_cons, hcalls]

/-! ## What an entry does to a task

The entries are looked at from the side of one identifier. Seven calls can change a task, and for
each of them there is one case with the transition that was made; the answer in the entry tells
whether it was. All else is the case in which the task is kept. -/

namespace Entry

/-- Whether a call succeeded in changing or adding the task of an identifier. -/
def changes (x : String) : Entry → Bool
  | ⟨_, .insert t, .ok _⟩ => t.id = x
  | ⟨_, .claim id _ _ _, .ok (some _)⟩ => id = x
  | ⟨_, .extendLease id _ _, .ok true⟩ => id = x
  | ⟨_, .markProcessed id _ _, .ok true⟩ => id = x
  | ⟨_, .incrementRetries id _ _, .ok (some _)⟩ => id = x
  | ⟨_, .markFailed id _ _ _, .ok true⟩ => id = x
  | ⟨_, .markSkipped id _, .ok true⟩ => id = x
  | _ => false

theorem changes_of_error (x : String) (now : Instant) (call : Call) (e : Error) :
    changes x ⟨now, call, .error e⟩ = false := by
  cases call <;> rfl

/-- **What an entry does to the task of an identifier**, which may not be there before. -/
inductive Moves (x : String) : Entry → Option Task → Option Task → Prop
  /-- The call was not about the task, or asked only, or was refused, or failed. -/
  | kept {e : Entry} {row : Option Task} (h : e.changes x = false) : Moves x e row row
  /-- The task was added. -/
  | inserted {now : Instant} {t : Task} (h : t.id = x) :
      Moves x ⟨now, .insert t, .ok ()⟩ none (some t)
  /-- The task was claimed. -/
  | claimed {now at_ deadline : Instant} {owner : String} {t t' : Task}
      (h : t.claim? owner deadline at_ = some t') :
      Moves x ⟨now, .claim x owner deadline at_, .ok (some t')⟩ (some t) (some t')
  /-- The lease was extended. -/
  | extended {now deadline : Instant} {owner : String} {t t' : Task}
      (h : t.extendLease? owner deadline = some t') :
      Moves x ⟨now, .extendLease x owner deadline, .ok true⟩ (some t) (some t')
  /-- The task was processed. -/
  | processed {now at_ : Instant} {owner : String} {t t' : Task}
      (h : t.process? owner at_ = some t') :
      Moves x ⟨now, .markProcessed x owner at_, .ok true⟩ (some t) (some t')
  /-- A failed attempt was recorded. -/
  | retried {now : Instant} {owner error : String} {t t' : Task}
      (h : t.failedAttempt? owner error now = some t') :
      Moves x ⟨now, .incrementRetries x owner error, .ok (some t'.retries)⟩ (some t) (some t')
  /-- The task has failed. -/
  | failed {now at_ : Instant} {owner error : String} {t t' : Task}
      (h : t.fail? owner error at_ = some t') :
      Moves x ⟨now, .markFailed x owner error at_, .ok true⟩ (some t) (some t')
  /-- The task was cancelled. -/
  | skipped {now at_ : Instant} {t t' : Task} (h : t.skip? at_ = some t') :
      Moves x ⟨now, .markSkipped x at_, .ok true⟩ (some t) (some t')

end Entry

/-- A call that has not changed the task of an identifier has left it as it was. -/
theorem Entry.Moves.eq_of_changes {x : String} {e : Entry} {row row' : Option Task}
    (h : Entry.Moves x e row row') (hkept : e.changes x = false) : row' = row := by
  cases h with
  | kept _ => rfl
  | _ => simp_all [changes]

/-- **A transition has three outcomes**: the task is not there, the transition is refused, or it
turns over this task and no other. -/
theorem transition_cases (s : TaskStore) (id : String) (change : Task → Option Task) :
    (s.transition id change = .error (.notFound "task" id)) ∨
    (s.transition id change = .ok (none, s)) ∨
    ∃ t t' s', s.find? id = some t ∧ change t = some t' ∧
      s.transition id change = .ok (some t', s') ∧
      ∀ x, s'.find? x = if x = id then some t' else s.find? x := by
  unfold transition
  cases hfind : s.find? id with
  | none => exact .inl rfl
  | some t =>
    cases hchange : change t with
    | none => exact .inr (.inl (by simp only [hchange]))
    | some t' =>
      refine .inr (.inr ⟨t, t', ⟨s.rows.insert id t'⟩, rfl, hchange, ?_, fun x => ?_⟩)
      · simp only [hchange]
      · exact Keyed.find?_insert s.rows id t' x

theorem transition_of_refused {s : TaskStore} {x : String} {t : Task}
    (change : Task → Option Task) (ht : s.find? x = some t) (h : change t = none) :
    s.transition x change = .ok (none, s) := by
  unfold transition
  rw [ht]
  simp only [h]

/-- What a new task does to the tasks. -/
theorem insert_cases (s : TaskStore) (t : Task) :
    (∃ e, s.insert t = .error e) ∨
    ∃ s', s.find? t.id = none ∧ s.insert t = .ok s' ∧
      ∀ x, s'.find? x = if x = t.id then some t else s.find? x := by
  unfold insert
  cases hfind : s.find? t.id with
  | some _ => exact .inl ⟨_, rfl⟩
  | none => exact .inr ⟨⟨s.rows.insert t.id t⟩, rfl, rfl, Keyed.find?_insert s.rows t.id t⟩

/-- A call that makes a transition moves the tasks as its entry says, if the entry of a transition
that happened does so for the task that it is about. -/
theorem moves_of_transition {s : TaskStore} {now : Instant} {call : Call} {id x : String}
    {change : Task → Option Task} {f : Option Task → call.Answer}
    (hperform : s.perform now call = (s.transition id change).map fun r => (f r.1, r.2))
    (hfailed : ∀ e, Entry.changes x ⟨now, call, .error e⟩ = false)
    (hrefused : Entry.changes x ⟨now, call, .ok (f none)⟩ = false)
    (hother : ∀ t', id ≠ x → Entry.changes x ⟨now, call, .ok (f (some t'))⟩ = false)
    (hmoved : ∀ t t', change t = some t' →
      Entry.Moves id ⟨now, call, .ok (f (some t'))⟩ (some t) (some t')) :
    Entry.Moves x ⟨now, call, (s.respond now call).1⟩ (s.find? x)
      ((s.respond now call).2.find? x) := by
  unfold respond
  rw [hperform]
  rcases s.transition_cases id change with h | h | ⟨t, t', s', hfind, hchange, h, hafter⟩
  · rw [h]
    exact .kept (hfailed _)
  · rw [h]
    exact .kept hrefused
  · rw [h]
    show Entry.Moves x ⟨now, call, .ok (f (some t'))⟩ (s.find? x) (s'.find? x)
    rw [hafter]
    by_cases hx : x = id
    · subst hx
      rw [if_pos rfl, hfind]
      exact hmoved t t' hchange
    · rw [if_neg hx]
      exact .kept (hother t' (Ne.symm hx))

/-- **Every answered call moves the tasks as its entry says.**

This is the one place where the store is opened. Six of the seven calls that can change a task go
through `TaskStore.transition` and differ in what they make of its result, so they are instances
of `TaskStore.moves_of_transition`; only the call that adds a task has a proof of its own. -/
theorem respond_moves (s : TaskStore) (now : Instant) (call : Call) (x : String) :
    Entry.Moves x ⟨now, call, (s.respond now call).1⟩ (s.find? x)
      ((s.respond now call).2.find? x) := by
  cases call with
  | insert t =>
    unfold respond
    rcases s.insert_cases t with ⟨e, h⟩ | ⟨s', hfree, h, hfind⟩
    · simp only [perform, h, Except.map]
      exact .kept rfl
    · simp only [perform, h, Except.map, hfind]
      by_cases hx : x = t.id
      · subst hx
        rw [if_pos rfl, hfree]
        exact .inserted rfl
      · rw [if_neg hx]
        exact .kept (by simpa [Entry.changes] using Ne.symm hx)
  | get id => exact .kept rfl
  | listByEvent eventId => exact .kept rfl
  | listDue at_ limit => exact .kept rfl
  | claim id owner deadline at_ =>
    refine moves_of_transition (f := fun t => t) ?_ (fun _ => rfl) rfl
      (fun _ h => by simpa [Entry.changes] using h) (fun _ _ h => .claimed h)
    show s.transition id _ = _
    cases s.transition id (·.claim? owner deadline at_) <;> rfl
  | extendLease id owner deadline =>
    exact moves_of_transition (f := Option.isSome) rfl (fun _ => rfl) rfl
      (fun _ h => by simpa [Entry.changes] using h) (fun _ _ h => .extended h)
  | markProcessed id owner at_ =>
    exact moves_of_transition (f := Option.isSome) rfl (fun _ => rfl) rfl
      (fun _ h => by simpa [Entry.changes] using h) (fun _ _ h => .processed h)
  | incrementRetries id owner error =>
    exact moves_of_transition (f := Option.map (·.retries)) rfl (fun _ => rfl) rfl
      (fun _ h => by simpa [Entry.changes] using h) (fun _ _ h => .retried h)
  | markFailed id owner error at_ =>
    exact moves_of_transition (f := Option.isSome) rfl (fun _ => rfl) rfl
      (fun _ h => by simpa [Entry.changes] using h) (fun _ _ h => .failed h)
  | markSkipped id at_ =>
    exact moves_of_transition (f := Option.isSome) rfl (fun _ => rfl) rfl
      (fun _ h => by simpa [Entry.changes] using h) (fun _ _ h => .skipped h)

theorem moves_of_answered {s : TaskStore} {e : Entry} (x : String)
    (answered : e.answer = (s.respond e.at_ e.call).1) :
    Entry.Moves x e (s.find? x) ((s.respond e.at_ e.call).2.find? x) := by
  obtain ⟨now, call, answer⟩ := e
  simp only at answered
  subst answered
  exact s.respond_moves now call x

/-- A task that no call of a history has changed is as it was. -/
theorem History.find?_eq {s s' : TaskStore} {entries : List Entry} {x : String}
    (h : History s entries s') (hkept : ∀ e ∈ entries, e.changes x = false) :
    s'.find? x = s.find? x := by
  induction h with
  | nil s => rfl
  | cons answered _ ih =>
    obtain ⟨hfirst, hrest⟩ := List.forall_mem_cons.mp hkept
    exact (ih hrest).trans ((moves_of_answered x answered).eq_of_changes hfirst)

/-- What the one entry of a history does to a task. -/
theorem History.moves {s s' : TaskStore} {e : Entry} (h : History s [e] s') (x : String) :
    Entry.Moves x e (s.find? x) (s'.find? x) := by
  cases h with
  | cons answered rest =>
    cases rest
    exact moves_of_answered x answered

end TaskStore

end Gathering
