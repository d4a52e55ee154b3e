import Gathering.Proofs.Cache.TimedMap
import Gathering.Proofs.Program.Run

/-!
# The stores that programs share

Besides the tasks, programs share the cache, the events and participants, and the
history of locations (`Stores`). Each call is answered by its store. Which calls may
also fail, without having done anything, is up to whoever says how the stores are
shared, and so is what others may do in between. Whatever else a program asks for –
what time it is, for one – is answered in any way at all.
-/

namespace Gathering

/-- **What programs share**: the cache with its clock, the events and participants, and the history
of locations. -/
structure Stores where
  /-- The clock of the cache, in nanoseconds. -/
  clock : Nat
  /-- The cache. -/
  cache : Cache.TimedMap
  /-- The events and participants. -/
  roster : Roster
  /-- The history of locations. -/
  trail : Trail

/-- Whether a request is a call of the cache. -/
def Request.IsCacheCall (r : Request) : Prop := ∃ call, r = .cache call

/-- Whether an effect is no call of one of these stores. -/
def Effect.isElsewhere : Effect → Bool
  | .request (.cache _) | .request (.roster _) | .request (.trail _) => false
  | _ => true

namespace Stores

/-- What the store of events and participants answers, and what becomes of it; a call that fails
leaves it as it is. -/
def respond (r : Roster) (call : Roster.Call) : Except Error call.Answer × Roster :=
  match r.perform call with
  | .ok (answer, r') => (.ok answer, r')
  | .error e => (.error e, r)

/-- **How effects are answered by the stores.** -/
inductive Answers (fails : Request → Prop) (st : Stores) : (e : Effect) → e.Answer → Stores → Prop
  /-- The cache was called. -/
  | cache (call : Cache.Call) :
      Answers fails st (.request (.cache call)) (.ok (st.cache.perform st.clock call).1)
        { st with cache := (st.cache.perform st.clock call).2 }
  /-- The cache has failed. -/
  | cacheFails {call : Cache.Call} (h : fails (.cache call)) (e : Error) :
      Answers fails st (.request (.cache call)) (.error e) st
  /-- The store of events and participants was called. -/
  | roster (call : Roster.Call) :
      Answers fails st (.request (.roster call)) (respond st.roster call).1
        { st with roster := (respond st.roster call).2 }
  /-- The store of events and participants has failed. -/
  | rosterFails {call : Roster.Call} (h : fails (.roster call)) (e : Error) :
      Answers fails st (.request (.roster call)) (.error e) st
  /-- The history of locations was called. -/
  | trail (call : Trail.Call) :
      Answers fails st (.request (.trail call)) (.ok (st.trail.perform call).1)
        { st with trail := (st.trail.perform call).2 }
  /-- The history of locations has failed. -/
  | trailFails {call : Trail.Call} (h : fails (.trail call)) (e : Error) :
      Answers fails st (.request (.trail call)) (.error e) st
  /-- It was no call of a store. -/
  | elsewhere {e : Effect} (h : e.isElsewhere = true) (answer : e.Answer) :
      Answers fails st e answer st

/-- Stores with nothing in them. -/
def empty : Stores := ⟨0, .empty, .empty, .empty⟩

/-- **Stores that are shared** with others. -/
def shared (fails : Request → Prop) (others : Stores → Stores → Prop) : Surroundings Stores where
  answers := Answers fails
  meanwhile := others

/-- **Time passes**, and events and participants and the history of locations change in any way. -/
def Passes (st st' : Stores) : Prop :=
  st.clock ≤ st'.clock ∧ st'.cache = st.cache

theorem Passes.refl (st : Stores) : st.Passes st := ⟨Nat.le_refl _, rfl⟩

variable {fails : Request → Prop} {others : Stores → Stores → Prop} {st st' : Stores}

theorem Passes.trans {st₁ : Stores} (h : st.Passes st₁) (h' : st₁.Passes st') : st.Passes st' :=
  ⟨Nat.le_trans h.1 h'.1, h'.2.trans h.2⟩

/-! ## The cache

What an answer says about the cache is needed in several forms, according to how much is known:
that the call did not fail, that it only reads, or that calls of its kind do not fail at all. -/

/-- **What is found under a key afterwards**: bytes that were there, or those that the effect
writes. -/
theorem Answers.value {e : Effect} {answer : e.Answer} (h : Answers fails st e answer st')
    {key : String} {entry : Cache.Entry} (hfind : st'.cache.entries.find? key = some entry) :
    (∃ old, st.cache.entries.find? key = some old ∧ old.value = entry.value) ∨
      ∃ ttl, e = .request (.cache (.set key entry.value ttl)) := by
  cases h with
  | cache call =>
    refine (Cache.TimedMap.value_perform hfind).imp_right ?_
    rintro ⟨ttl, rfl⟩
    exact ⟨ttl, rfl⟩
  | cacheFails | roster | rosterFails | trail | trailFails | elsewhere =>
    exact .inl ⟨entry, hfind, rfl⟩

/-- A call of the cache that did not fail was answered by it. -/
theorem Answers.eq_perform {call : Cache.Call} {a : call.Answer}
    (h : Answers fails st (.request (.cache call)) (.ok a) st') :
    a = (st.cache.perform st.clock call).1 ∧
      st' = { st with cache := (st.cache.perform st.clock call).2 } := by
  generalize hanswer : (Except.ok a : Except Error call.Answer) = answer at h
  cases h with
  | cache call => exact ⟨Except.ok.inj hanswer, rfl⟩
  | cacheFails => cases hanswer
  | elsewhere h => cases h

theorem Answers.mono {fails' : Request → Prop} (hfails : ∀ r, fails r → fails' r) {e : Effect}
    {answer : e.Answer} (h : Answers fails st e answer st') : Answers fails' st e answer st' := by
  cases h with
  | cache call => exact .cache call
  | cacheFails h e => exact .cacheFails (hfails _ h) e
  | roster call => exact .roster call
  | rosterFails h e => exact .rosterFails (hfails _ h) e
  | trail call => exact .trail call
  | trailFails h e => exact .trailFails (hfails _ h) e
  | elsewhere h answer => exact .elsewhere h answer

theorem Answers.eq_of_isElsewhere {e : Effect} {answer : e.Answer}
    (h : Answers fails st e answer st') (he : e.isElsewhere = true) : st' = st := by
  cases h with
  | cache | cacheFails | roster | rosterFails | trail | trailFails => cases he
  | elsewhere => rfl

theorem Answers.of_roster {call : Roster.Call} {answer : Except Error call.Answer}
    (h : Answers fails st (.request (.roster call)) answer st') :
    ∃ r, st' = { st with roster := r } := by
  cases h with
  | roster => exact ⟨_, rfl⟩
  | rosterFails => exact ⟨st.roster, rfl⟩
  | elsewhere h => cases h

/-- A call that only reads the cache is answered by it, or it fails. -/
theorem Answers.of_read {call : Cache.Call} {answer : Except Error call.Answer}
    (h : Answers fails st (.request (.cache call)) answer st')
    (hread : (st.cache.perform st.clock call).2 = st.cache) :
    st' = st ∧ (answer = .ok (st.cache.perform st.clock call).1 ∨ ∃ e, answer = .error e) := by
  cases h with
  | cache => exact ⟨by rw [hread], .inl rfl⟩
  | cacheFails _ e => exact ⟨rfl, .inr ⟨e, rfl⟩⟩
  | elsewhere h => cases h

theorem Answers.of_get {key : String} {answer : Except Error (Option ByteArray)}
    (h : Answers fails st (.request (.cache (.get key))) answer st') :
    st' = st ∧ (answer = .ok (st.cache.get? st.clock key) ∨ ∃ e, answer = .error e) :=
  h.of_read rfl

theorem Answers.of_set {key : String} {value : ByteArray} {ttl : Option Span}
    {answer : Except Error Unit}
    (h : Answers fails st (.request (.cache (.set key value ttl))) answer st') :
    (answer = .ok () ∧ st' = { st with cache := st.cache.set st.clock key value ttl }) ∨
      (∃ e, answer = .error e) ∧ st' = st := by
  cases h with
  | cache => exact .inl ⟨rfl, rfl⟩
  | cacheFails _ e => exact .inr ⟨⟨e, rfl⟩, rfl⟩
  | elsewhere h => cases h

theorem Answers.of_cache {call : Cache.Call} {answer : Except Error call.Answer}
    (h : Answers fails st (.request (.cache call)) answer st') (hholds : ¬ fails (.cache call)) :
    answer = .ok (st.cache.perform st.clock call).1 ∧
      st' = { st with cache := (st.cache.perform st.clock call).2 } := by
  cases h with
  | cache => exact ⟨rfl, rfl⟩
  | cacheFails h => exact absurd h hholds
  | elsewhere h => cases h

theorem Answers.of_trail {call : Trail.Call} {answer : Except Error call.Answer}
    (h : Answers fails st (.request (.trail call)) answer st') (hholds : ¬ fails (.trail call)) :
    answer = .ok (st.trail.perform call).1 ∧
      st' = { st with trail := (st.trail.perform call).2 } := by
  cases h with
  | trail => exact ⟨rfl, rfl⟩
  | trailFails h => exact absurd h hholds
  | elsewhere h => cases h

/-! ## Undisturbed runs -/

variable {α : Type} {a : α}

theorem reaches_cache (hrefl : ∀ st, others st st) {call : Cache.Call}
    {next : Except Error call.Answer → Work α}
    (rest : Work.Reaches (shared fails others)
      { st with cache := (st.cache.perform st.clock call).2 }
      (next (.ok (st.cache.perform st.clock call).1)) a st') :
    Work.Reaches (shared fails others) st (Work.request (.cache call) >>= next) a st' :=
  .ask (hrefl st) (.cache call) rest

theorem reaches_roster (hrefl : ∀ st, others st st) {call : Roster.Call}
    {next : Except Error call.Answer → Work α} {answer : Except Error call.Answer} {r : Roster}
    (h : respond st.roster call = (answer, r))
    (rest : Work.Reaches (shared fails others) { st with roster := r } (next answer) a st') :
    Work.Reaches (shared fails others) st (Work.request (.roster call) >>= next) a st' := by
  have hanswers : Answers fails st (.request (.roster call)) _ _ := .roster call
  rw [h] at hanswers
  exact .ask (hrefl st) hanswers rest

theorem reaches_trail (hrefl : ∀ st, others st st) {call : Trail.Call}
    {next : Except Error call.Answer → Work α}
    (rest : Work.Reaches (shared fails others) { st with trail := (st.trail.perform call).2 }
      (next (.ok (st.trail.perform call).1)) a st') :
    Work.Reaches (shared fails others) st (Work.request (.trail call) >>= next) a st' :=
  .ask (hrefl st) (.trail call) rest

theorem reaches_elsewhere (hrefl : ∀ st, others st st) {r : Request} {next : r.Answer → Work α}
    (answer : r.Answer) (h : (Effect.request r).isElsewhere = true)
    (rest : Work.Reaches (shared fails others) st (next answer) a st') :
    Work.Reaches (shared fails others) st (Work.request r >>= next) a st' :=
  .ask (hrefl st) (.elsewhere h answer) rest

/-! ## Calls that are made to fail

Above, a call may fail, which leaves open whether it does. Here it is settled beforehand: the
calls of some kind fail, all of them and always, and the others do not. A claim about every
possible failure is then a claim about every such kind. -/

/-- Whether an answer is the failure of a call of a store. -/
def Fails : (e : Effect) → e.Answer → Prop
  | .request (.cache _), answer => ∃ err, answer = .error err
  | .request (.roster _), answer => ∃ err, answer = .error err
  | .request (.trail _), answer => ∃ err, answer = .error err
  | _, _ => False

/-- **Stores of which exactly these calls fail.** -/
def failing (refused : Request → Prop) (others : Stores → Stores → Prop) : Surroundings Stores where
  answers st e answer st' := Answers refused st e answer st' ∧
    ∀ r, e = .request r → e.isElsewhere = false → refused r → Fails e answer
  meanwhile := others

/-- Every effect gets an answer, whichever calls fail.

What is no call of one of the three stores may be answered by anything at all, so that any value
of the right type does. -/
theorem exists_answer_failing (refused : Request → Prop) (st : Stores) (e : Effect) :
    ∃ answer st', (failing refused others).answers st e answer st' := by
  have helsewhere : ∀ (e : Effect), e.isElsewhere = true → e.Answer →
      ∃ answer st', (failing refused others).answers st e answer st' := fun e he answer =>
    ⟨answer, st, .elsewhere he answer, fun _ _ h => by rw [he] at h; cases h⟩
  -- a call that is to fail is answered with some error, and all others as their store says
  match e with
  | .request (.cache call) =>
    by_cases h : refused (.cache call)
    · exact ⟨.error .redis, st, .cacheFails h _, fun _ _ _ _ => ⟨_, rfl⟩⟩
    · exact ⟨_, _, .cache call, by rintro _ ⟨⟩ - h'; exact absurd h' h⟩
  | .request (.roster call) =>
    by_cases h : refused (.roster call)
    · exact ⟨.error .redis, st, .rosterFails h _, fun _ _ _ _ => ⟨_, rfl⟩⟩
    · exact ⟨_, _, .roster call, by rintro _ ⟨⟩ - h'; exact absurd h' h⟩
  | .request (.trail call) =>
    by_cases h : refused (.trail call)
    · exact ⟨.error .redis, st, .trailFails h _, fun _ _ _ _ => ⟨_, rfl⟩⟩
    · exact ⟨_, _, .trail call, by rintro _ ⟨⟩ - h'; exact absurd h' h⟩
  | .request .now => exact helsewhere _ rfl Instant.epoch
  | .request .freshId => exact helsewhere _ rfl ""
  | .request .isCancelled => exact helsewhere _ rfl false
  | .request (.tasks _) => exact helsewhere _ rfl (.error .redis)
  | .request (.send _) => exact helsewhere _ rfl (.ok ())
  | .fanOut _ => exact helsewhere _ rfl []
  | .startSweeper _ _ => exact helsewhere _ rfl (0 : Nat)
  | .stopSweeper _ _ => exact helsewhere _ rfl false

/-- **A program runs to its end, whichever calls fail.** -/
theorem exists_runs_failing (hrefl : ∀ st, others st st) (refused : Request → Prop) (p : Work α)
    (st : Stores) :
    ∃ turns a st', Work.Runs (shared refused others) st p turns a st' ∧
      ∀ turn ∈ turns, ∀ r, turn.effect = .request r → turn.effect.isElsewhere = false →
        refused r → Fails turn.effect turn.answer := by
  obtain ⟨turns, a, st', run⟩ := Work.exists_runs (W := failing refused others)
    (fun st => ⟨st, hrefl st⟩) (exists_answer_failing refused) p st
  exact ⟨turns, a, st', run.mono (fun _ _ => id) (fun _ _ _ _ h => h.1),
    fun turn hturn => (run.answered turn hturn).2⟩

end Stores

end Gathering
