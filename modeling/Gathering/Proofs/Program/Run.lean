import Gathering.Proofs.Program.Protocol

/-!
# Programs that run among others

A program does not run alone. Between its effects others move the state that it
shares with them, and its effects may be answered in more than one way. An
**environment** says what others may do and which answers there are, and a
**run** follows a program to its end and keeps a record of what was asked for,
with the answers and with the states before and after (`Work.Runs`).

Runs follow the program: a run of one program after another is a run of the
first and then a run of the second (`Work.runs_bind_iff`). What holds along a run
comes from a protocol that the program obeys and an invariant that every allowed
effect keeps (`Work.Runs.keeps`), so that no proof about a long program looks at
its runs.
-/

namespace Gathering

/-- **How a state is shared**: which answers an effect may get, and what it leaves behind; and what
others may do in between. -/
structure Surroundings (σ : Type) where
  /-- From a state, an effect may get an answer and leave a state. -/
  answers : σ → (e : Effect) → e.Answer → σ → Prop
  /-- From a state, others may come to a state. -/
  meanwhile : σ → σ → Prop

/-- **One effect of a run**, with its answer and what it has done to the state. -/
structure Turn (σ : Type) where
  /-- The state when the effect was asked for. -/
  before : σ
  /-- The effect. -/
  effect : Effect
  /-- The answer. -/
  answer : effect.Answer
  /-- The state when the answer was given. -/
  after : σ

variable {σ τ α β : Type}

namespace Work

/-- **A run of a program** from one state to another: its turns, and its result. -/
inductive Runs (W : Surroundings σ) : σ → Work α → List (Turn σ) → α → σ → Prop
  /-- The program has ended. -/
  | done (a : α) (st : σ) : Runs W st (.done a) [] a st
  /-- Others came first, then the effect was answered, and the program went on. -/
  | ask {e : Effect} {answer : e.Answer} {next : e.Answer → Work α} {turns : List (Turn σ)} {a : α}
      {st st₁ st₂ st' : σ} (others : W.meanwhile st st₁) (answered : W.answers st₁ e answer st₂)
      (rest : Runs W st₂ (next answer) turns a st') :
      Runs W st (.ask e next) (⟨st₁, e, answer, st₂⟩ :: turns) a st'

variable {W : Surroundings σ} {st st' : σ} {turns : List (Turn σ)} {a : α} {b : β}

/-- **One program after another.** -/
theorem runs_bind_iff {p : Work α} {f : α → Work β} :
    Runs W st (p >>= f) turns b st' ↔
      ∃ first last a st₁, turns = first ++ last ∧ Runs W st p first a st₁ ∧
        Runs W st₁ (f a) last b st' := by
  constructor
  · intro run
    induction p generalizing st turns with
    | done a => exact ⟨[], turns, a, st, rfl, .done a st, run⟩
    | ask e next ih =>
      cases run with
      | ask others answered rest =>
        obtain ⟨first, last, a, st₁, rfl, run, run'⟩ := ih _ rest
        exact ⟨_ :: first, last, a, st₁, rfl, .ask others answered run, run'⟩
  · rintro ⟨first, last, a, st₁, rfl, run, run'⟩
    induction run with
    | done a st => exact run'
    | ask others answered _ ih => exact .ask others answered (ih run')

theorem runs_map_iff {p : Work α} {f : α → β} :
    Runs W st (f <$> p) turns b st' ↔ ∃ a, f a = b ∧ Runs W st p turns a st' := by
  rw [← bind_pure_comp, runs_bind_iff]
  constructor
  · rintro ⟨first, last, a, st₁, rfl, run, run'⟩
    cases run'
    exact ⟨a, rfl, by rwa [List.append_nil]⟩
  · rintro ⟨a, rfl, run⟩
    exact ⟨turns, [], a, st', (List.append_nil turns).symm, run, .done (f a) st'⟩

/-- One effect, and going on with the answer. -/
theorem runs_call_iff {e : Effect} {f : e.Answer → Work β} :
    Runs W st ((Program.call e : Work e.Answer) >>= f) turns b st' ↔
      ∃ st₁ answer st₂ rest, turns = ⟨st₁, e, answer, st₂⟩ :: rest ∧ W.meanwhile st st₁ ∧
        W.answers st₁ e answer st₂ ∧ Runs W st₂ (f answer) rest b st' := by
  constructor
  · intro run
    cases run with
    | ask others answered rest => exact ⟨_, _, _, _, rfl, others, answered, rest⟩
  · rintro ⟨st₁, answer, st₂, rest, rfl, others, answered, run⟩
    exact .ask others answered run

theorem runs_pure_iff {a' : α} :
    Runs W st (pure a') turns a st' ↔ turns = [] ∧ a = a' ∧ st' = st := by
  constructor
  · intro run
    cases run
    exact ⟨rfl, rfl, rfl⟩
  · rintro ⟨rfl, rfl, rfl⟩
    exact .done a st'

/-! ## Where a run can end

A statement that something can happen needs one run only, and often not even its turns. Then it is
enough that an end is reached. -/

/-- **A program can reach an end**: a result, and a state. -/
def Reaches (W : Surroundings σ) (st : σ) (p : Work α) (a : α) (st' : σ) : Prop :=
  ∃ turns, Runs W st p turns a st'

theorem Reaches.done (a : α) (st : σ) : Reaches W st (.done a) a st := ⟨[], .done a st⟩

theorem Reaches.ask {e : Effect} {answer : e.Answer} {next : e.Answer → Work α} {st₁ st₂ : σ}
    (others : W.meanwhile st st₁) (answered : W.answers st₁ e answer st₂)
    (rest : Reaches W st₂ (next answer) a st') : Reaches W st (.ask e next) a st' := by
  obtain ⟨turns, run⟩ := rest
  exact ⟨_, .ask others answered run⟩

theorem Reaches.exists_runs {e : Effect} {answer : e.Answer} {next : e.Answer → Work α}
    {st₁ st₂ : σ} (others : W.meanwhile st st₁) (answered : W.answers st₁ e answer st₂)
    (rest : Reaches W st₂ (next answer) a st') :
    ∃ turns, Runs W st ((Program.call e : Work e.Answer) >>= next)
      (⟨st₁, e, answer, st₂⟩ :: turns) a st' := by
  obtain ⟨turns, run⟩ := rest
  exact ⟨turns, .ask others answered run⟩

theorem Reaches.after {e : Effect} {next : e.Answer → Work α} {st₁ : σ}
    (htrans : ∀ {st₁ st₂ st₃}, W.meanwhile st₁ st₂ → W.meanwhile st₂ st₃ → W.meanwhile st₁ st₃)
    (others : W.meanwhile st st₁) (h : Reaches W st₁ (.ask e next) a st') :
    Reaches W st (.ask e next) a st' := by
  obtain ⟨turns, run⟩ := h
  cases run with
  | ask others' answered rest => exact ⟨_, .ask (htrans others others') answered rest⟩

theorem Reaches.bind {p : Work α} {f : α → Work β} {st₁ : σ} (h : Reaches W st p a st₁)
    (h' : Reaches W st₁ (f a) b st') : Reaches W st (p >>= f) b st' := by
  obtain ⟨first, run⟩ := h
  obtain ⟨last, run'⟩ := h'
  exact ⟨first ++ last, runs_bind_iff.mpr ⟨first, last, a, st₁, rfl, run, run'⟩⟩

theorem Reaches.map {p : Work α} (f : α → β) (h : Reaches W st p a st') :
    Reaches W st (f <$> p) (f a) st' := by
  obtain ⟨turns, run⟩ := h
  exact ⟨turns, runs_map_iff.mpr ⟨a, rfl, run⟩⟩

/-- **A program runs to its end** where every effect gets an answer.

By induction on the program, which is a tree: each answer leads to a smaller one. So a statement
about all runs of a program is never empty. -/
theorem exists_runs (hmeanwhile : ∀ st, ∃ st', W.meanwhile st st')
    (hanswers : ∀ st e, ∃ answer st', W.answers st e answer st') (p : Work α) (st : σ) :
    ∃ turns a st', Runs W st p turns a st' := by
  induction p generalizing st with
  | done a => exact ⟨[], a, st, .done a st⟩
  | ask e next ih =>
    obtain ⟨st₁, others⟩ := hmeanwhile st
    obtain ⟨answer, st₂, answered⟩ := hanswers st₁ e
    obtain ⟨turns, a, st', rest⟩ := ih answer st₂
    exact ⟨_, a, st', .ask others answered rest⟩

/-- A run goes through in surroundings that allow for more. -/
theorem Runs.mono {W' : Surroundings σ} {p : Work α} (run : Runs W st p turns a st')
    (hmeanwhile : ∀ st st', W.meanwhile st st' → W'.meanwhile st st')
    (hanswers : ∀ st e answer st', W.answers st e answer st' → W'.answers st e answer st') :
    Runs W' st p turns a st' := by
  induction run with
  | done a st => exact .done a st
  | ask others answered _ ih => exact .ask (hmeanwhile _ _ others) (hanswers _ _ _ _ answered) ih

/-! ## What holds along a run -/

theorem Runs.answered {p : Work α} (run : Runs W st p turns a st') :
    ∀ turn ∈ turns, W.answers turn.before turn.effect turn.answer turn.after := by
  induction run with
  | done a st => exact fun _ h => by cases h
  | ask _ answered _ ih => exact List.forall_mem_cons.mpr ⟨answered, ih⟩

/-- **What a program keeps.** The program obeys a protocol, others keep an invariant, and so does
every effect that the protocol allows; then the invariant holds at the end, and every effect that
was asked for was allowed where the program stood, with the invariant in force. -/
theorem Runs.keeps {P : Protocol τ} {ends : α → τ → Prop} {I : τ → σ → Prop} {p : Work α} {q : τ}
    (run : Runs W st p turns a st') (hobeys : p.Obeys P ends q)
    (hmeanwhile : ∀ q st st', I q st → W.meanwhile st st' → I q st')
    (hanswers : ∀ q st e answer st', P.allows q e → I q st → W.answers st e answer st' →
      I (P.after q e answer) st') (hI : I q st) :
    (∃ q', ends a q' ∧ I q' st') ∧
      ∀ turn ∈ turns, ∃ q, P.allows q turn.effect ∧ I q turn.before := by
  induction run generalizing q with
  | done a st => exact ⟨⟨q, hobeys, hI⟩, fun _ h => by cases h⟩
  | ask others answered _ ih =>
    have hI := hmeanwhile _ _ _ hI others
    obtain ⟨hend, hturns⟩ := ih (hobeys.2 _) (hanswers _ _ _ _ _ hobeys.1 hI answered)
    exact ⟨hend, List.forall_mem_cons.mpr ⟨⟨q, hobeys.1, hI⟩, hturns⟩⟩

theorem Runs.allowed {P : Protocol τ} {ends : α → τ → Prop} {p : Work α} {q : τ}
    (run : Runs W st p turns a st') (hobeys : p.Obeys P ends q) :
    ∀ turn ∈ turns, ∃ q, P.allows q turn.effect := fun turn hmem =>
  ((run.keeps (I := fun _ _ => True) hobeys (fun _ _ _ _ _ => trivial)
    (fun _ _ _ _ _ _ _ _ => trivial) trivial).2 turn hmem).imp fun _ h => h.1

end Work

end Gathering
