import Gathering.Proofs.Program.Run
import Mathlib.Logic.Relation

/-!
# Programs that run at the same time

Any number of programs run side by side, each of them started at any time, and
take turns in any order: a step starts a program, or one of them asks for its
next effect, or others come in between. A **pool** is the state that they share
together with what is left of each.

What holds of a pool comes from the programs one by one: if every program obeys a
protocol, and every effect that the protocol allows keeps an invariant of the
state, then the invariant holds after any number of steps (`Pool.Keeps.steps`). One more
program may be watched as it runs among the others: for it the steps of the pool
are what happens meanwhile (`Pool.around`).
-/

namespace Gathering

/-- **Programs that share a state.** -/
structure Pool (σ : Type) where
  /-- The state. -/
  state : σ
  /-- What is left of each program. -/
  programs : List (Work Unit)

namespace Pool

variable {σ τ α : Type} {W : Surroundings σ} {calls : Work Unit → Prop} {pool pool' : Pool σ}

/-- **A step of a pool.** -/
inductive Step (W : Surroundings σ) (calls : Work Unit → Prop) : Pool σ → Pool σ → Prop
  /-- A program is started. -/
  | starts {st : σ} {programs : List (Work Unit)} {p : Work Unit} (h : calls p) :
      Step W calls ⟨st, programs⟩ ⟨st, p :: programs⟩
  /-- One of the programs asks for its next effect. -/
  | asks {st st' : σ} {before after : List (Work Unit)} {e : Effect} {next : e.Answer → Work Unit}
      {answer : e.Answer} (h : W.answers st e answer st') :
      Step W calls ⟨st, before ++ .ask e next :: after⟩ ⟨st', before ++ next answer :: after⟩
  /-- Others come in between. -/
  | meanwhile {st st' : σ} {programs : List (Work Unit)} (h : W.meanwhile st st') :
      Step W calls ⟨st, programs⟩ ⟨st', programs⟩

/-- **Any number of steps.** -/
abbrev Steps (W : Surroundings σ) (calls : Work Unit → Prop) : Pool σ → Pool σ → Prop :=
  Relation.ReflTransGen (Step W calls)

/-- **One more program runs among those of the pool.** -/
def around (W : Surroundings σ) (calls : Work Unit → Prop) : Surroundings (Pool σ) where
  answers pool e answer pool' :=
    W.answers pool.state e answer pool'.state ∧ pool'.programs = pool.programs
  meanwhile := Steps W calls

/-! ## Invariants

The invariant is about the shared state, and it is kept together with the promise that what is
left of each program will ask for allowed effects only. That promise is kept by the step itself: a
program that goes on is a part of what it was. -/

/-- An invariant of the state, while every program keeps to what is allowed. -/
structure Keeps (I : σ → Prop) (allows : Effect → Prop) (pool : Pool σ) : Prop where
  /-- The invariant holds. -/
  state : I pool.state
  /-- Every program asks for what is allowed only. -/
  programs : ∀ p ∈ pool.programs, Work.Asks allows p

variable {I : σ → Prop} {allows : Effect → Prop}

/-- **What every program and everybody else keeps is kept by a step.** -/
theorem Keeps.step (hcalls : ∀ p, calls p → Work.Asks allows p)
    (hmeanwhile : ∀ st st', I st → W.meanwhile st st' → I st')
    (hanswers : ∀ st e answer st', allows e → I st → W.answers st e answer st' → I st')
    (h : Keeps I allows pool) (hstep : Step W calls pool pool') : Keeps I allows pool' := by
  cases hstep with
  | starts hp => exact ⟨h.state, List.forall_mem_cons.mpr ⟨hcalls _ hp, h.programs⟩⟩
  | asks hanswer =>
    have hask := h.programs _ (List.mem_append_right _ List.mem_cons_self)
    refine ⟨hanswers _ _ _ _ hask.1 h.state hanswer, fun p hp => ?_⟩
    rcases List.mem_append.mp hp with hp | hp
    · exact h.programs p (List.mem_append_left _ hp)
    · rcases List.mem_cons.mp hp with rfl | hp
      · exact hask.2 _
      · exact h.programs p (List.mem_append_right _ (List.mem_cons_of_mem _ hp))
  | meanwhile hothers => exact ⟨hmeanwhile _ _ h.state hothers, h.programs⟩

/-- **What every program and everybody else keeps is kept.**

So an invariant of any number of programs is proved in three parts: of each program, what it may
ask for; of each of these effects, that it keeps the invariant; and of the others, that they do
too. -/
theorem Keeps.steps (hcalls : ∀ p, calls p → Work.Asks allows p)
    (hmeanwhile : ∀ st st', I st → W.meanwhile st st' → I st')
    (hanswers : ∀ st e answer st', allows e → I st → W.answers st e answer st' → I st')
    (h : Keeps I allows pool) (hsteps : Steps W calls pool pool') : Keeps I allows pool' := by
  induction hsteps with
  | refl => exact h
  | tail _ hstep ih => exact ih.step hcalls hmeanwhile hanswers hstep

/-- **What is kept while one more program runs.** The invariant holds whenever the program asks
for an effect.

The steps of the pool are what happens between the turns of this program, and they keep the
invariant; so do its own effects. -/
theorem Keeps.runs (hcalls : ∀ p, calls p → Work.Asks allows p)
    (hmeanwhile : ∀ st st', I st → W.meanwhile st st' → I st')
    (hanswers : ∀ st e answer st', allows e → I st → W.answers st e answer st' → I st')
    {p : Work α} (hp : p.Asks allows) {turns : List (Turn (Pool σ))} {a : α}
    (h : Keeps I allows pool) (run : Work.Runs (around W calls) pool p turns a pool') :
    ∀ turn ∈ turns, I turn.before.state := by
  have hkept := run.keeps (I := fun _ => Keeps I allows) hp
    (fun _ _ _ h hsteps => h.steps hcalls hmeanwhile hanswers hsteps)
    (fun _ _ _ _ _ hallows h hanswer =>
      ⟨hanswers _ _ _ _ hallows h.state hanswer.1, hanswer.2 ▸ h.programs⟩) h
  intro turn hturn
  obtain ⟨_, _, hkeeps⟩ := hkept.2 turn hturn
  exact hkeeps.state

/-! ## Undisturbed runs -/

/-- A program of the pool that reaches an end by itself can reach it in the pool. -/
theorem steps_of_reaches {st st' : σ} {p : Work Unit} {a : Unit} {programs : List (Work Unit)}
    (h : Work.Reaches W st p a st') :
    Steps W calls ⟨st, p :: programs⟩ ⟨st', .done a :: programs⟩ := by
  obtain ⟨turns, run⟩ := h
  induction run with
  | done a st => exact .refl
  | @ask e answer next _ _ _ st₁ st₂ _ others answered _ ih =>
    have hasks : Step W calls ⟨st₁, [] ++ .ask e next :: programs⟩
        ⟨st₂, [] ++ next answer :: programs⟩ :=
      .asks answered
    exact .head (.meanwhile others) (.head hasks ih)

/-- A program that is started and reaches an end before anybody else takes a turn. -/
theorem steps_of_call {st st' : σ} {p : Work Unit} {a : Unit} (hp : calls p)
    (h : Work.Reaches W st p a st') (programs : List (Work Unit)) :
    Steps W calls ⟨st, programs⟩ ⟨st', .done a :: programs⟩ :=
  .head (.starts hp) (steps_of_reaches h)

/-- A program that reaches an end by itself can reach it among the programs of a pool. -/
theorem reaches_around {st st' : σ} {p : Work α} {a : α} {programs : List (Work Unit)}
    (h : Work.Reaches W st p a st') :
    Work.Reaches (around W calls) ⟨st, programs⟩ p a ⟨st', programs⟩ := by
  obtain ⟨turns, run⟩ := h
  induction run with
  | done a st => exact .done a _
  | @ask e answer next _ _ _ st₁ st₂ _ others answered _ ih =>
    have hanswers : (around W calls).answers ⟨st₁, programs⟩ e answer ⟨st₂, programs⟩ :=
      ⟨answered, rfl⟩
    exact .ask (.single (.meanwhile others)) hanswers ih

end Pool

end Gathering
