import Gathering.Proofs.Program.Trace

/-!
# Logs of programs that run at the same time

A trace says who has done what. A **log** also says in which state each effect was
answered, and what the answer has left (`Pool.Log`).

To one program of a pool the others are whatever comes in between, so what it has done
is a run of the program by itself, among others who may do anything that can be done
at all (`Pool.Log.runs`). What is known about such runs need not be proved again for
pools; what a log adds is the order in which the programs took their turns.

Between two turns of one program lie turns of the others and whatever happens
besides. All of that is a drift of the state (`Surroundings.Drifts`), and a program
among others who may drift the state in any way is in the same position as a program
of a pool, so far as it can tell.
-/

namespace Gathering

namespace Surroundings

variable {σ : Type}

/-- **A state may become another one** while effects are answered and others come in between. -/
abbrev Drifts (W : Surroundings σ) : σ → σ → Prop :=
  Relation.ReflTransGen fun st st' => W.meanwhile st st' ∨ ∃ e answer, W.answers st e answer st'

theorem drifts_of_answers {W : Surroundings σ} {st st' : σ} {e : Effect} {answer : e.Answer}
    (h : W.answers st e answer st') : W.Drifts st st' :=
  .single (.inr ⟨e, answer, h⟩)

/-- **Where others do anything that can be done.** -/
def crowded (W : Surroundings σ) : Surroundings σ where
  answers := W.answers
  meanwhile := W.Drifts

end Surroundings

/-- **A turn of a program of a pool**, which is known by its number. -/
structure Move (σ : Type) where
  /-- The number of the program. -/
  number : Nat
  /-- The turn that it has taken. -/
  turn : Turn σ

namespace Move

variable {σ : Type}

/-- What was done in a turn, and by whom. -/
def act (m : Move σ) : Act := ⟨m.number, m.turn.deed⟩

/-- The turns of the program of a number. -/
def own (n : Nat) (moves : List (Move σ)) : List (Turn σ) :=
  (moves.filter (·.number = n)).map (·.turn)

variable {n : Nat} {moves moves' : List (Move σ)} {turn : Turn σ}

theorem map_deed_own (n : Nat) (moves : List (Move σ)) :
    (own n moves).map (·.deed) = Act.own n (moves.map act) := by
  unfold own Act.own
  rw [List.filter_map, List.map_map, List.map_map]
  rfl

theorem own_append : own n (moves ++ moves') = own n moves ++ own n moves' := by
  simp [own]

theorem own_cons_of_eq {m : Move σ} (h : m.number = n) :
    own n (m :: moves) = m.turn :: own n moves := by
  simp [own, h]

theorem mem_own_iff : turn ∈ own n moves ↔ ⟨n, turn⟩ ∈ moves := by
  unfold own
  simp only [List.mem_map, List.mem_filter, decide_eq_true_eq]
  constructor
  · rintro ⟨⟨m, turn⟩, ⟨hmem, rfl⟩, rfl⟩
    exact hmem
  · exact fun h => ⟨⟨n, turn⟩, ⟨h, rfl⟩, rfl⟩

end Move

namespace Pool

variable {σ : Type} {W : Surroundings σ} {calls : Nat → Work Unit → Prop} {start : σ}
  {moves : List (Move σ)} {pool : Pool σ}

/-- **A run of a pool with its log.** Programs are numbered as they are started. -/
inductive Log (W : Surroundings σ) (calls : Nat → Work Unit → Prop) (start : σ) :
    List (Move σ) → Pool σ → Prop
  /-- Nothing has happened. -/
  | nil : Log W calls start [] ⟨start, []⟩
  /-- A program was started. -/
  | starts {moves : List (Move σ)} {st : σ} {programs : List (Work Unit)} {p : Work Unit}
      (log : Log W calls start moves ⟨st, programs⟩) (h : calls programs.length p) :
      Log W calls start moves ⟨st, programs ++ [p]⟩
  /-- One of the programs has asked for its next effect. -/
  | asks {moves : List (Move σ)} {st st' : σ} {before after : List (Work Unit)} {e : Effect}
      {next : e.Answer → Work Unit} {answer : e.Answer}
      (log : Log W calls start moves ⟨st, before ++ .ask e next :: after⟩)
      (h : W.answers st e answer st') :
      Log W calls start (moves ++ [⟨before.length, st, e, answer, st'⟩])
        ⟨st', before ++ next answer :: after⟩
  /-- Others came in between. -/
  | meanwhile {moves : List (Move σ)} {st st' : σ} {programs : List (Work Unit)}
      (log : Log W calls start moves ⟨st, programs⟩) (h : W.meanwhile st st') :
      Log W calls start moves ⟨st', programs⟩

/-- A log tells a trace. -/
theorem Log.run (log : Log W calls start moves pool) :
    Run W calls start (moves.map Move.act) pool := by
  induction log with
  | nil => exact .nil
  | starts _ h ih => exact .starts ih h
  | asks _ h ih =>
    rw [List.map_append]
    exact .asks ih h
  | meanwhile _ h ih => exact .meanwhile ih h

/-- Every trace has a log. -/
theorem Run.exists_log {acts : List Act} (run : Run W calls start acts pool) :
    ∃ moves, Log W calls start moves pool ∧ moves.map Move.act = acts := by
  induction run with
  | nil => exact ⟨[], .nil, rfl⟩
  | starts _ h ih =>
    obtain ⟨moves, log, hacts⟩ := ih
    exact ⟨moves, .starts log h, hacts⟩
  | asks _ h ih =>
    obtain ⟨moves, log, hacts⟩ := ih
    refine ⟨_, .asks log h, ?_⟩
    rw [List.map_append, hacts]
    rfl
  | meanwhile _ h ih =>
    obtain ⟨moves, log, hacts⟩ := ih
    exact ⟨moves, .meanwhile log h, hacts⟩

theorem Log.answered (log : Log W calls start moves pool) :
    ∀ m ∈ moves, W.answers m.turn.before m.turn.effect m.turn.answer m.turn.after := by
  induction log with
  | nil => exact fun _ h => by cases h
  | starts _ _ ih => exact ih
  | asks _ h ih => exact List.forall_mem_append.mpr ⟨ih, List.forall_mem_singleton.mpr h⟩
  | meanwhile _ _ ih => exact ih

/-- **What a state may become lies between it and any later one** of a log. -/
structure Log.Drifting (W : Surroundings σ) (start : σ) (moves : List (Move σ)) (st : σ) :
    Prop where
  /-- From the beginning to now. -/
  all : W.Drifts start st
  /-- From the beginning to a turn. -/
  before : ∀ m ∈ moves, W.Drifts start m.turn.before
  /-- From a turn to now. -/
  after : ∀ m ∈ moves, W.Drifts m.turn.after st
  /-- From one turn to another. -/
  between : moves.Pairwise fun m m' => W.Drifts m.turn.after m'.turn.before

theorem Log.Drifting.trans {st st' : σ} (h : Log.Drifting W start moves st)
    (h' : W.Drifts st st') : Log.Drifting W start moves st' :=
  ⟨h.all.trans h', h.before, fun m hm => (h.after m hm).trans h', h.between⟩

/-- **The states of a log drift.**

By induction on the log: every step of the pool moves the state by one step of a drift or not at
all, and the new turn comes after all others. -/
theorem Log.drifting (log : Log W calls start moves pool) :
    Log.Drifting W start moves pool.state := by
  induction log with
  | nil => exact ⟨.refl, (fun _ h => by cases h), (fun _ h => by cases h), .nil⟩
  | starts _ _ ih => exact ih
  | @asks moves st st' before after e next answer log h ih =>
    have hlater := ih.trans (Surroundings.drifts_of_answers h)
    exact
      { all := hlater.all
        before := List.forall_mem_append.mpr
          ⟨ih.before, List.forall_mem_singleton.mpr ih.all⟩
        after := List.forall_mem_append.mpr
          ⟨hlater.after, List.forall_mem_singleton.mpr .refl⟩
        between := List.pairwise_append.mpr ⟨ih.between, List.pairwise_singleton _ _,
          fun m hm m' hm' => List.mem_singleton.mp hm' ▸ ih.after m hm⟩ }
  | meanwhile _ h ih => exact ih.trans (.single (.inl h))

/-- **What the log was when a turn was taken**: the program of the turn was about to ask for its
effect.

By induction on the log from its end: the turn is the last one, or it was taken before the last
step. -/
theorem Log.split {before after : List (Move σ)} {m : Move σ}
    (log : Log W calls start (before ++ m :: after) pool) :
    ∃ pool' next, Log W calls start before pool' ∧
      pool'.programs[m.number]? = some (.ask m.turn.effect next) := by
  generalize hmoves : before ++ m :: after = moves at log
  induction log generalizing after with
  | nil => simp at hmoves
  | starts _ _ ih => exact ih hmoves
  | @asks moves st st' first last e next answer log h ih =>
    rcases List.eq_nil_or_concat' after with rfl | ⟨after, m', rfl⟩
    · obtain ⟨rfl, hm⟩ := List.append_inj' hmoves rfl
      cases hm
      exact ⟨_, next, log, by simp⟩
    · rw [← List.cons_append, ← List.append_assoc] at hmoves
      obtain ⟨hmoves, -⟩ := List.append_inj' hmoves rfl
      exact ih hmoves
  | meanwhile _ _ ih => exact ih hmoves

end Pool

namespace Work

variable {σ α : Type} {W : Surroundings σ} {p : Work α} {a : α}

/-- **A path whose turns were answered one after the other is a run.** -/
theorem Path.exists_runs {turns : List (Turn σ)} {st : σ}
    (path : Path p (turns.map (·.deed)) (.done a))
    (hanswered : ∀ turn ∈ turns, W.answers turn.before turn.effect turn.answer turn.after)
    (hfirst : ∀ turn ∈ turns, W.meanwhile st turn.before)
    (hbetween : turns.Pairwise fun turn turn' => W.meanwhile turn.after turn'.before) :
    ∃ st', Runs W st p turns a st' := by
  induction turns generalizing p st with
  | nil =>
    cases path
    exact ⟨st, .done a st⟩
  | cons turn turns ih =>
    obtain ⟨hturn, hrest⟩ := List.forall_mem_cons.mp hanswered
    obtain ⟨hnext, hlater⟩ := List.pairwise_cons.mp hbetween
    cases path with
    | ask path =>
      obtain ⟨st', run⟩ := ih path hrest hnext hlater
      exact ⟨st', .ask (hfirst turn List.mem_cons_self) hturn run⟩

theorem Runs.drifts {st st' : σ} {turns : List (Turn σ)} (run : Runs W st p turns a st') :
    W.Drifts st st' := by
  induction run with
  | done a st => exact .refl
  | ask others answered _ ih =>
    exact .head (.inl others) ((Surroundings.drifts_of_answers answered).trans ih)

/-- **A program leads to what is left of it**, from one state to another, by its turns. -/
inductive LeadsBy (W : Surroundings σ) : σ → Work α → List (Turn σ) → Work α → σ → Prop
  /-- It has not done anything. -/
  | refl (st : σ) (p : Work α) : LeadsBy W st p [] p st
  /-- Others came first, then it has asked for an effect, was answered, and went on. -/
  | ask {e : Effect} {answer : e.Answer} {next : e.Answer → Work α} {p : Work α}
      {turns : List (Turn σ)} {st st₁ st₂ st' : σ} (others : W.meanwhile st st₁)
      (answered : W.answers st₁ e answer st₂) (rest : LeadsBy W st₂ (next answer) turns p st') :
      LeadsBy W st (.ask e next) (⟨st₁, e, answer, st₂⟩ :: turns) p st'

end Work

namespace Pool

variable {σ α : Type} {W : Surroundings σ} {calls : Nat → Work Unit → Prop} {start : σ}
  {moves : List (Move σ)} {pool : Pool σ}

/-- **A program of the pool goes on**, and nobody else takes a turn meanwhile. -/
theorem Log.leads {st st' : σ} (before : List (Work Unit)) {after : List (Work Unit)}
    {p p' : Work Unit} {turns : List (Turn σ)}
    (log : Log W calls start moves ⟨st, before ++ p :: after⟩)
    (h : Work.LeadsBy W st p turns p' st') :
    Log W calls start (moves ++ turns.map (⟨before.length, ·⟩)) ⟨st', before ++ p' :: after⟩ := by
  induction h generalizing moves with
  | refl st p => rwa [List.map_nil, List.append_nil]
  | ask others answered _ ih =>
    rw [List.map_cons, List.append_cons]
    exact ih (.asks (.meanwhile log others) answered)

/-- **What a program of a pool has done is a run of it by itself**, among others who may do
anything.

The turns of the program are a path through it, and the states in between drift, which is all that
a run among such others asks for. -/
theorem Log.runs (log : Log W calls start moves pool) {n : Nat} {p : Work α} {a : α}
    (path : Work.Path p ((Move.own n moves).map (·.deed)) (.done a)) :
    ∃ st', Work.Runs W.crowded start p (Move.own n moves) a st' := by
  have hdrifting := log.drifting
  have hown : ∀ turn ∈ Move.own n moves, (⟨n, turn⟩ : Move σ) ∈ moves := fun turn hturn =>
    Move.mem_own_iff.mp hturn
  refine path.exists_runs (fun turn hturn => log.answered _ (hown turn hturn))
    (fun turn hturn => hdrifting.before _ (hown turn hturn)) ?_
  exact List.pairwise_map.mpr (hdrifting.between.sublist List.filter_sublist)

end Pool

end Gathering
