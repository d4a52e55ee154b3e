import Gathering.Proofs.Store.Stores

/-!
# Reading stores that stand still

While the stores stand still – nobody else comes in between, and no store fails,
except that the cache may be down altogether – a program that only reads has one
result, and it leaves everything as it was. The program **yields** this result: it
can be reached, and no run ends with another one (`Stores.Yields`).

What a program yields is found out by following it, one rule for each call. So two
programs that read the same in different ways can be compared without comparing
their runs.
-/

namespace Gathering

namespace Stores

/-- Whether an answer refuses what was asked of the cache. -/
def Refuses : (e : Effect) → e.Answer → Prop
  | .request (.cache _), answer => ∃ err, answer = .error err
  | _, _ => True

/-- Which calls may fail: those of a cache that is down. -/
def Outage (down : Bool) (r : Request) : Prop := down = true ∧ r.IsCacheCall

/-- **Stores that stand still.** Nobody comes in between, and no call fails; but if the cache is
down, all of its calls do. -/
def quiet (down : Bool) : Surroundings Stores where
  answers st e answer st' :=
    Answers (Outage down) st e answer st' ∧ (down = true → Refuses e answer)
  meanwhile st st' := st' = st

/-- **What a program yields** while the stores stand still: it can end with a result, it always
does, and everything is left as it was. -/
def Yields {α : Type} (down : Bool) (st : Stores) (p : Work α) (a : α) : Prop :=
  Work.Reaches (quiet down) st p a st ∧
    ∀ turns a' st', Work.Runs (quiet down) st p turns a' st' → a' = a ∧ st' = st

/-- What is found under a key, if the cache is not down. -/
def readable (st : Stores) (down : Bool) (key : String) : Option ByteArray :=
  if down then none else st.cache.get? st.clock key

variable {down : Bool} {st : Stores} {α β : Type} {a : α} {b : β}

/-! ## One rule for each kind of program

A program that reads is followed with one of these rules for each call. The rule for the cache has
two cases, one for a cache that answers and one for a cache that is down, since programs go on
differently after them. -/

theorem Yields.unique {p : Work α} {a' : α} (h : st.Yields down p a) (h' : st.Yields down p a') :
    a = a' := by
  obtain ⟨turns, run⟩ := h.1
  exact (h'.2 _ _ _ run).1

theorem Yields.done (a : α) : st.Yields down (.done a) a := by
  refine ⟨.done a st, fun turns a' st' run => ?_⟩
  cases run
  exact ⟨rfl, rfl⟩

/-- **One program after another.** -/
theorem Yields.bind {p : Work α} {f : α → Work β} (h : st.Yields down p a)
    (h' : st.Yields down (f a) b) : st.Yields down (p >>= f) b := by
  refine ⟨h.1.bind h'.1, fun turns b' st' run => ?_⟩
  obtain ⟨first, last, a', st₁, -, run, run'⟩ := Work.runs_bind_iff.mp run
  obtain ⟨rfl, rfl⟩ := h.2 _ _ _ run
  exact h'.2 _ _ _ run'

/-- **One effect**: it is answered, and whatever the answer is, the rest yields the result.

The first hypothesis is needed since a program that is never answered has no result: without it
the second one would hold of it trivially. -/
theorem Yields.ask {e : Effect} {next : e.Answer → Work α}
    (hsome : ∃ answer, (quiet down).answers st e answer st)
    (hall : ∀ answer st', (quiet down).answers st e answer st' →
      st' = st ∧ st.Yields down (next answer) a) : st.Yields down (.ask e next) a := by
  obtain ⟨answer, hanswer⟩ := hsome
  refine ⟨.ask rfl hanswer (hall answer st hanswer).2.1, fun turns a' st' run => ?_⟩
  cases run with
  | ask others answered rest =>
    obtain rfl : _ = st := others
    obtain ⟨rfl, hyields⟩ := hall _ _ answered
    exact hyields.2 _ _ _ rest

/-- A cache that is down is the only store that fails. -/
theorem not_outage {r : Request} (h : ∀ call, r ≠ .cache call) : ¬ Outage down r := by
  rintro ⟨-, call, hcall⟩
  exact h call hcall

/-- The cache is read, or it is down. -/
theorem Yields.cache {call : Cache.Call} {next : Except Error call.Answer → Work α}
    (hread : (st.cache.perform st.clock call).2 = st.cache)
    (hup : down = false → st.Yields down (next (.ok (st.cache.perform st.clock call).1)) a)
    (hdown : down = true → ∀ err, st.Yields down (next (.error err)) a) :
    st.Yields down (Work.request (.cache call) >>= next) a := by
  refine Yields.ask ?_ ?_
  · cases down with
    | true => exact ⟨.error (.notFound "" ""), .cacheFails ⟨rfl, call, rfl⟩ _, fun _ => ⟨_, rfl⟩⟩
    | false =>
      have hanswers : Answers (Outage false) st (.request (.cache call)) _ _ := .cache call
      rw [hread] at hanswers
      exact ⟨_, hanswers, fun h => by cases h⟩
  · rintro answer st' ⟨hanswer, hrefuses⟩
    cases hanswer with
    | cache call =>
      cases down with
      | true =>
        obtain ⟨_, h⟩ := hrefuses rfl
        cases h
      | false => exact ⟨by rw [hread], hup rfl⟩
    | cacheFails h err => exact ⟨rfl, hdown h.1 err⟩
    | elsewhere h => cases h

theorem Yields.trail {call : Trail.Call} {next : Except Error call.Answer → Work α}
    (hread : (st.trail.perform call).2 = st.trail)
    (h : st.Yields down (next (.ok (st.trail.perform call).1)) a) :
    st.Yields down (Work.request (.trail call) >>= next) a := by
  have hanswers : Answers (Outage down) st (.request (.trail call)) _ _ := .trail call
  rw [hread] at hanswers
  refine Yields.ask ⟨_, hanswers, fun _ => trivial⟩ fun answer st' hanswer => ?_
  obtain ⟨rfl, rfl⟩ := hanswer.1.of_trail (not_outage fun _ h => by cases h)
  exact ⟨by rw [hread], h⟩

theorem Yields.roster {call : Roster.Call} {next : Except Error call.Answer → Work α}
    {answer : Except Error call.Answer} (hread : respond st.roster call = (answer, st.roster))
    (h : st.Yields down (next answer) a) :
    st.Yields down (Work.request (.roster call) >>= next) a := by
  have hanswers : Answers (Outage down) st (.request (.roster call)) _ _ := .roster call
  rw [hread] at hanswers
  refine Yields.ask ⟨answer, hanswers, fun _ => trivial⟩ fun answer' st' ⟨hanswer, _⟩ => ?_
  cases hanswer with
  | roster =>
    rw [hread]
    exact ⟨rfl, h⟩
  | rosterFails hfails => exact absurd hfails (not_outage fun _ h => by cases h)
  | elsewhere h => cases h

/-! ## Jobs -/

variable {r : Except Error β} {err : Error}

theorem Yields.bind_ok {j : Job α} {f : α → Job β} (h : st.Yields down j.run (.ok a))
    (h' : st.Yields down (f a).run r) : st.Yields down (j >>= f).run r :=
  Yields.bind h h'

theorem Yields.bind_error {j : Job α} {f : α → Job β} (h : st.Yields down j.run (.error err)) :
    st.Yields down (j >>= f).run (.error err) :=
  Yields.bind h (.done _)

theorem Yields.lift {p : Work α} (h : st.Yields down p a) :
    st.Yields down (ExceptT.lift p : Job α).run (.ok a) :=
  Yields.bind h (.done _)

end Stores

end Gathering
