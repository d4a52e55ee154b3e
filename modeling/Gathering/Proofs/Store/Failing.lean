import Gathering.Proofs.Store.Stores

/-!
# Stores of which some calls fail

Which calls fail is given beforehand. Then a call of a store has one answer if it does
not fail, and otherwise some error, and nothing is done; one lemma for each store says
so. A program may end in different errors, but where it comes to a result, it may be
that it comes to no other: then it **comes to** the result (`Stores.ComesTo`), and two
programs that look up the same can be compared by what they come to.

The programs are followed with these lemmas through `Work.runs_call_iff`: an answer
is an error of which nothing more is known, or the one answer that the store has.
-/

namespace Gathering.Stores

variable {refused : Request → Prop} {others : Stores → Stores → Prop} {st st' : Stores}

theorem failing_elsewhere {e : Effect} {answer : e.Answer}
    (h : (failing refused others).answers st e answer st') (he : e.isElsewhere = true) : st' = st :=
  h.1.eq_of_isElsewhere he

/-- **The store of events and participants** has failed, or it has answered. -/
theorem failing_roster {call : Roster.Call} {answer : Except Error call.Answer}
    (h : (failing refused others).answers st (.request (.roster call)) answer st') :
    (refused (.roster call) ∧ (∃ err, answer = .error err) ∧ st' = st) ∨
      (¬ refused (.roster call) ∧ answer = (respond st.roster call).1 ∧
        st' = { st with roster := (respond st.roster call).2 }) := by
  obtain ⟨hanswer, hfails⟩ := h
  by_cases hrefused : refused (.roster call)
  · refine .inl ⟨hrefused, hfails _ rfl rfl hrefused, ?_⟩
    cases hanswer with
    | rosterFails => rfl
    | elsewhere he => cases he
    | roster =>
      -- the call was answered with an error of its own, which has changed nothing
      obtain ⟨err, herr⟩ : ∃ err, (respond st.roster call).1 = .error err :=
        hfails _ rfl rfl hrefused
      unfold respond at herr ⊢
      cases hperform : st.roster.perform call with
      | error e => rfl
      | ok r =>
        rw [hperform] at herr
        cases herr
  · refine .inr ⟨hrefused, ?_⟩
    cases hanswer with
    | rosterFails h => exact absurd h hrefused
    | elsewhere he => cases he
    | roster => exact ⟨rfl, rfl⟩

theorem failing_getEvent {e : String} {answer : Except Error (Option Event)}
    (h : (failing refused others).answers st (.request (.roster (.getEvent e))) answer st') :
    st' = st ∧ ((refused (.roster (.getEvent e)) ∧ ∃ err, answer = .error err) ∨
      (¬ refused (.roster (.getEvent e)) ∧ answer = .ok (st.roster.event? e))) := by
  rcases failing_roster h with ⟨hrefused, herr, rfl⟩ | ⟨hholds, rfl, rfl⟩
  · exact ⟨rfl, .inl ⟨hrefused, herr⟩⟩
  · exact ⟨rfl, .inr ⟨hholds, rfl⟩⟩

theorem failing_getParticipant {p : String} {answer : Except Error (Option Participant)}
    (h : (failing refused others).answers st (.request (.roster (.getParticipant p))) answer st') :
    st' = st ∧ ((refused (.roster (.getParticipant p)) ∧ ∃ err, answer = .error err) ∨
      (¬ refused (.roster (.getParticipant p)) ∧ answer = .ok (st.roster.participant? p))) := by
  rcases failing_roster h with ⟨hrefused, herr, rfl⟩ | ⟨hholds, rfl, rfl⟩
  · exact ⟨rfl, .inl ⟨hrefused, herr⟩⟩
  · exact ⟨rfl, .inr ⟨hholds, rfl⟩⟩

/-- **The cache** has failed, or it has answered. -/
theorem failing_cache {call : Cache.Call} {answer : Except Error call.Answer}
    (h : (failing refused others).answers st (.request (.cache call)) answer st') :
    (refused (.cache call) ∧ (∃ err, answer = .error err) ∧ st' = st) ∨
      (¬ refused (.cache call) ∧ answer = .ok (st.cache.perform st.clock call).1 ∧
        st' = { st with cache := (st.cache.perform st.clock call).2 }) := by
  obtain ⟨hanswer, hfails⟩ := h
  by_cases hrefused : refused (.cache call)
  · obtain ⟨err, rfl⟩ : ∃ err, answer = .error err := hfails _ rfl rfl hrefused
    refine .inl ⟨hrefused, ⟨err, rfl⟩, ?_⟩
    cases hanswer with
    | cacheFails => rfl
    | elsewhere he => cases he
  · exact .inr ⟨hrefused, hanswer.of_cache hrefused⟩

/-- **The history of locations** has failed, or it has answered. -/
theorem failing_trail {call : Trail.Call} {answer : Except Error call.Answer}
    (h : (failing refused others).answers st (.request (.trail call)) answer st') :
    (refused (.trail call) ∧ (∃ err, answer = .error err) ∧ st' = st) ∨
      (¬ refused (.trail call) ∧ answer = .ok (st.trail.perform call).1 ∧
        st' = { st with trail := (st.trail.perform call).2 }) := by
  obtain ⟨hanswer, hfails⟩ := h
  by_cases hrefused : refused (.trail call)
  · obtain ⟨err, rfl⟩ : ∃ err, answer = .error err := hfails _ rfl rfl hrefused
    refine .inl ⟨hrefused, ⟨err, rfl⟩, ?_⟩
    cases hanswer with
    | trailFails => rfl
    | elsewhere he => cases he
  · exact .inr ⟨hrefused, hanswer.of_trail hrefused⟩

/-- Every program comes to an end, whichever calls fail. -/
theorem exists_run {α : Type} (hrefl : ∀ st, others st st) (refused : Request → Prop) (p : Work α)
    (st : Stores) : ∃ turns a st', Work.Runs (failing refused others) st p turns a st' :=
  Work.exists_runs (fun st => ⟨st, hrefl st⟩) (exists_answer_failing refused) p st

/-! ## Where nobody comes in between

To compare two programs that read, nobody else may change what they read. The results are then
those of one state of the stores, and which calls fail is the same for both. -/

/-- Stores of which these calls fail, and nobody comes in between. -/
abbrev still (refused : Request → Prop) : Surroundings Stores :=
  failing refused Eq

variable {α : Type} {a : α}

/-- **A program comes to a result**, whichever errors it sees on the way: it ends, and it always
ends with this result and leaves the stores as they were. -/
def ComesTo (refused : Request → Prop) (st : Stores) (p : Work α) (a : α) : Prop :=
  (∃ turns, Work.Runs (still refused) st p turns a st) ∧
    ∀ turns a' st', Work.Runs (still refused) st p turns a' st' → a' = a ∧ st' = st

/-- A program comes to a result if it has no other end. That it has an end at all need not be
shown: every program comes to one (`Stores.exists_run`). -/
theorem comesTo_of_runs {p : Work α}
    (h : ∀ turns a' st', Work.Runs (still refused) st p turns a' st' → a' = a ∧ st' = st) :
    ComesTo refused st p a := by
  obtain ⟨turns, a', st', run⟩ := exists_run (fun _ => rfl) refused p st
  obtain ⟨rfl, rfl⟩ := h turns a' st' run
  exact ⟨⟨turns, run⟩, h⟩

end Gathering.Stores
