import Gathering.Proofs.Program.Pool
import Mathlib.Data.List.Basic
import Mathlib.Data.List.Induction

/-!
# Traces of programs that run at the same time

A pool forgets what its programs have done. Here it is told: a program that is
started gets a number, and the **trace** of a run says which program has asked for
what, and what it was answered, in the order in which it happened (`Pool.Run`).

What one program has done is a part of the trace, and it is a **path** of the
program: it leads from the program, as it was called, to what is left of it
(`Pool.Run.path`). So the shape of a program says in which order its own deeds
stand in the trace, and the rest is a matter of who came last.

To show that something can happen, a run is put together from programs that are
left halfway and go on later (`Work.Leads`, `Pool.Run.leads`).
-/

namespace Gathering

/-- **An effect that was answered.** -/
structure Answered where
  /-- What was asked for. -/
  effect : Effect
  /-- The answer. -/
  answer : effect.Answer

/-- What was asked for in a turn, with the answer. -/
def Turn.deed {σ : Type} (turn : Turn σ) : Answered := ⟨turn.effect, turn.answer⟩

/-! ## Paths

A path forgets the state: it only tells what the program was answered. So a path says what the
program has learned, whatever else has happened in the meantime. -/

namespace Work

variable {α β : Type}

/-- **A path of a program**: its deeds lead to what is left of it. -/
inductive Path : Work α → List Answered → Work α → Prop
  /-- It has not done anything. -/
  | nil (p : Work α) : Path p [] p
  /-- It has asked for an effect, was answered, and went on. -/
  | ask {e : Effect} {answer : e.Answer} {next : e.Answer → Work α} {deeds : List Answered}
      {p : Work α} (rest : Path (next answer) deeds p) :
      Path (.ask e next) (⟨e, answer⟩ :: deeds) p

variable {p : Work α} {deeds : List Answered} {a : α} {b : β}

theorem Path.concat {e : Effect} {next : e.Answer → Work α} (h : Path p deeds (.ask e next))
    (answer : e.Answer) : Path p (deeds ++ [⟨e, answer⟩]) (next answer) := by
  generalize hq : Program.ask e next = q at h
  induction h with
  | nil p =>
    subst hq
    exact .ask (.nil _)
  | ask _ ih => exact .ask (ih hq)

/-- **Some deeds and then others.** -/
theorem path_append_iff {deeds' : List Answered} {p' : Work α} :
    Path p (deeds ++ deeds') p' ↔ ∃ q, Path p deeds q ∧ Path q deeds' p' := by
  constructor
  · intro h
    induction deeds generalizing p with
    | nil => exact ⟨p, .nil p, h⟩
    | cons d deeds ih =>
      cases h with
      | ask rest =>
        obtain ⟨q, hfirst, hlast⟩ := ih rest
        exact ⟨q, .ask hfirst, hlast⟩
  · rintro ⟨q, hfirst, hlast⟩
    induction hfirst with
    | nil p => exact hlast
    | ask _ ih => exact .ask (ih hlast)

/-- **What is left of a program that obeys a protocol obeys it**, from where it stands then. -/
theorem Obeys.path {τ : Type} {P : Protocol τ} {ends : α → τ → Prop} {st : τ} {q : Work α}
    (hobeys : p.Obeys P ends st) (path : Path p deeds q) : ∃ st', q.Obeys P ends st' := by
  induction path generalizing st with
  | nil p => exact ⟨st, hobeys⟩
  | ask _ ih => exact ih (hobeys.2 _)

theorem path_done_iff {a' : α} : Path (.done a') deeds (.done a) ↔ deeds = [] ∧ a' = a := by
  constructor
  · intro h
    cases h
    exact ⟨rfl, rfl⟩
  · rintro ⟨rfl, rfl⟩
    exact .nil _

theorem path_call_iff {e : Effect} {f : e.Answer → Work β} :
    Path ((Program.call e : Work e.Answer) >>= f) deeds (.done b) ↔
      ∃ answer rest, deeds = ⟨e, answer⟩ :: rest ∧ Path (f answer) rest (.done b) := by
  constructor
  · intro h
    cases h with
    | ask rest => exact ⟨_, _, rfl, rest⟩
  · rintro ⟨answer, rest, rfl, h⟩
    exact .ask h

/-- A program that has its result asks for nothing. -/
theorem not_path_done_ask {e : Effect} {next : e.Answer → Work α} :
    ¬ Path (.done a) deeds (.ask e next) := by
  intro h
  cases h

theorem path_call_ask {e e' : Effect} {f : e.Answer → Work β} {next : e'.Answer → Work β}
    (h : Path ((Program.call e : Work e.Answer) >>= f) deeds (.ask e' next)) (hne : e ≠ e') :
    ∃ answer rest, deeds = ⟨e, answer⟩ :: rest ∧ Path (f answer) rest (.ask e' next) := by
  cases h with
  | nil => exact absurd rfl hne
  | ask rest => exact ⟨_, _, rfl, rest⟩

theorem path_single {e : Effect} {answer : e.Answer}
    (h : Path (Program.call e) deeds (.done answer)) : deeds = [⟨e, answer⟩] := by
  cases h with
  | ask rest =>
    obtain ⟨rfl, rfl⟩ := path_done_iff.mp rest
    rfl

/-- **One program after another.** -/
theorem path_bind_iff {f : α → Work β} :
    Path (p >>= f) deeds (.done b) ↔
      ∃ first last a, deeds = first ++ last ∧ Path p first (.done a) ∧
        Path (f a) last (.done b) := by
  constructor
  · intro h
    induction p generalizing deeds with
    | done a => exact ⟨[], deeds, a, rfl, .nil _, h⟩
    | ask e next ih =>
      cases h with
      | ask rest =>
        obtain ⟨first, last, a, rfl, hfirst, hlast⟩ := ih _ rest
        exact ⟨_ :: first, last, a, rfl, .ask hfirst, hlast⟩
  · rintro ⟨first, last, a, rfl, hfirst, hlast⟩
    generalize hq : Program.done a = q at hfirst
    induction hfirst with
    | nil p =>
      subst hq
      exact hlast
    | ask _ ih => exact .ask (ih hq)

theorem path_map_iff {f : α → β} :
    Path (f <$> p) deeds (.done b) ↔ ∃ a, f a = b ∧ Path p deeds (.done a) := by
  rw [← bind_pure_comp, path_bind_iff]
  constructor
  · rintro ⟨first, last, a, rfl, hfirst, hlast⟩
    obtain ⟨rfl, rfl⟩ := path_done_iff.mp hlast
    exact ⟨a, rfl, by rwa [List.append_nil]⟩
  · rintro ⟨a, rfl, h⟩
    exact ⟨deeds, [], a, (List.append_nil deeds).symm, h, .nil _⟩

variable {σ : Type} {W : Surroundings σ} {st st₁ st' : σ} {p' : Work α}

/-- **The deeds of a run are a path** to its result. -/
theorem Runs.path {turns : List (Turn σ)} (run : Runs W st p turns a st') :
    Path p (turns.map (·.deed)) (.done a) := by
  induction run with
  | done a st => exact .nil _
  | ask _ _ _ ih => exact .ask ih

/-! ## Programs that are left halfway

A run leads to the end of a program. To show that something can happen in between, a program is
led up to some point, others take their turns, and then it is led on. -/

/-- **A program leads to what is left of it**, from one state to another. -/
inductive Leads (W : Surroundings σ) : σ → Work α → Work α → σ → Prop
  /-- It has not done anything. -/
  | refl (st : σ) (p : Work α) : Leads W st p p st
  /-- Others came first, then it has asked for an effect, was answered, and went on. -/
  | ask {e : Effect} {answer : e.Answer} {next : e.Answer → Work α} {p : Work α}
      {st st₁ st₂ st' : σ} (others : W.meanwhile st st₁) (answered : W.answers st₁ e answer st₂)
      (rest : Leads W st₂ (next answer) p st') : Leads W st (.ask e next) p st'

theorem Reaches.leads (h : Reaches W st p a st') : Leads W st p (.done a) st' := by
  obtain ⟨turns, run⟩ := h
  induction run with
  | done a st => exact .refl st (.done a)
  | ask others answered _ ih => exact .ask others answered ih

theorem Leads.trans {p'' : Work α} (h : Leads W st p p' st₁) (h' : Leads W st₁ p' p'' st') :
    Leads W st p p'' st' := by
  induction h with
  | refl => exact h'
  | ask others answered _ ih => exact .ask others answered (ih h')

theorem Leads.map (f : α → β) (h : Leads W st p p' st') :
    Leads W st (f <$> p) (f <$> p') st' := by
  induction h with
  | refl st p => exact .refl st (f <$> p)
  | ask others answered _ ih => exact .ask others answered ih

end Work

/-! ## Traces

The programs of a pool keep their places in the list, and a program that is started goes to the
end; so a place is a name for good.

 -/

/-- **A deed of a program of a pool**, which is known by its number. -/
structure Act where
  /-- The number of the program. -/
  number : Nat
  /-- What it has done. -/
  deed : Answered

namespace Act

/-- What the program of a number has done. -/
def own (n : Nat) (acts : List Act) : List Answered :=
  (acts.filter (·.number = n)).map (·.deed)

variable {n : Nat} {acts acts' : List Act} {x : Act} {d : Answered}

theorem own_append : own n (acts ++ acts') = own n acts ++ own n acts' := by
  simp [own]

theorem own_cons_self : own n (⟨n, d⟩ :: acts) = d :: own n acts := by
  simp [own]

theorem own_singleton_of_ne (h : x.number ≠ n) : own n [x] = [] := by
  simp [own, h]

theorem mem_own_iff : d ∈ own n acts ↔ ⟨n, d⟩ ∈ acts := by
  unfold own
  simp only [List.mem_map, List.mem_filter, decide_eq_true_eq]
  constructor
  · rintro ⟨⟨m, d⟩, ⟨hmem, rfl⟩, rfl⟩
    exact hmem
  · exact fun h => ⟨⟨n, d⟩, ⟨h, rfl⟩, rfl⟩

/-- **The last act of a kind.** -/
def IsLast (P : Act → Prop) (acts : List Act) (x : Act) : Prop :=
  ∃ before after, acts = before ++ x :: after ∧ P x ∧ ∀ y ∈ after, ¬ P y

variable {P : Act → Prop} {y : Act}

theorem IsLast.holds (h : IsLast P acts x) : P x := by
  obtain ⟨_, _, -, hx, -⟩ := h
  exact hx

theorem IsLast.mem (h : IsLast P acts x) : x ∈ acts := by
  obtain ⟨before, after, rfl, -, -⟩ := h
  exact List.mem_append_right _ List.mem_cons_self

/-- Every other act of the kind came before. -/
theorem IsLast.sublist (h : IsLast P acts x) (hy : y ∈ acts) (hP : P y) (hne : y ≠ x) :
    [y, x].Sublist acts := by
  obtain ⟨before, after, rfl, -, hlast⟩ := h
  have hbefore : y ∈ before := by
    rcases List.mem_append.mp hy with hy | hy
    · exact hy
    · rcases List.mem_cons.mp hy with rfl | hy
      · exact absurd rfl hne
      · exact absurd hP (hlast y hy)
  have hsub : ([y] ++ [x]).Sublist (before ++ x :: after) :=
    (List.singleton_sublist.mpr hbefore).append (List.singleton_sublist.mpr List.mem_cons_self)
  exact hsub

/-- **The last act after one act more.** -/
theorem isLast_concat_iff :
    IsLast P (acts ++ [y]) x ↔ (P y ∧ x = y) ∨ (¬ P y ∧ IsLast P acts x) := by
  constructor
  · rintro ⟨before, after, hsplit, hx, hlast⟩
    rcases List.eq_nil_or_concat' after with rfl | ⟨after', z, rfl⟩
    · obtain ⟨-, hxy⟩ := List.append_inj' hsplit rfl
      obtain rfl := List.singleton_inj.mp hxy
      exact .inl ⟨hx, rfl⟩
    · rw [← List.cons_append, ← List.append_assoc] at hsplit
      obtain ⟨rfl, hzy⟩ := List.append_inj' hsplit rfl
      obtain rfl := List.singleton_inj.mp hzy
      obtain ⟨hafter, hy⟩ := List.forall_mem_append.mp hlast
      exact .inr ⟨hy _ (List.mem_singleton_self _), before, after', rfl, hx, hafter⟩
  · rintro (⟨hy, rfl⟩ | ⟨hy, before, after, rfl, hx, hlast⟩)
    · exact ⟨acts, [], rfl, hy, fun _ h => by cases h⟩
    · refine ⟨before, after ++ [y], by rw [List.append_assoc, List.cons_append], hx, ?_⟩
      exact List.forall_mem_append.mpr ⟨hlast, List.forall_mem_singleton.mpr hy⟩

/-- If there is an act of the kind, there is a last one. -/
theorem exists_isLast (hx : x ∈ acts) (hP : P x) : ∃ y, IsLast P acts y := by
  induction acts using List.reverseRecOn with
  | nil => cases hx
  | append_singleton acts y ih =>
    by_cases hy : P y
    · exact ⟨y, isLast_concat_iff.mpr (.inl ⟨hy, rfl⟩)⟩
    · have hmem : x ∈ acts := by
        rcases List.mem_append.mp hx with hx | hx
        · exact hx
        · exact absurd (List.mem_singleton.mp hx ▸ hP) hy
      obtain ⟨z, hz⟩ := ih hmem
      exact ⟨z, isLast_concat_iff.mpr (.inr ⟨hy, hz⟩)⟩

end Act

namespace Pool

variable {σ : Type} {W : Surroundings σ} {calls : Nat → Work Unit → Prop} {start : σ}
  {acts : List Act} {pool : Pool σ}

/-- **A run of a pool with its trace.** Programs are numbered as they are started. -/
inductive Run (W : Surroundings σ) (calls : Nat → Work Unit → Prop) (start : σ) :
    List Act → Pool σ → Prop
  /-- Nothing has happened. -/
  | nil : Run W calls start [] ⟨start, []⟩
  /-- A program was started. -/
  | starts {acts : List Act} {st : σ} {programs : List (Work Unit)} {p : Work Unit}
      (run : Run W calls start acts ⟨st, programs⟩) (h : calls programs.length p) :
      Run W calls start acts ⟨st, programs ++ [p]⟩
  /-- One of the programs has asked for its next effect. -/
  | asks {acts : List Act} {st st' : σ} {before after : List (Work Unit)} {e : Effect}
      {next : e.Answer → Work Unit} {answer : e.Answer}
      (run : Run W calls start acts ⟨st, before ++ .ask e next :: after⟩)
      (h : W.answers st e answer st') :
      Run W calls start (acts ++ [⟨before.length, e, answer⟩])
        ⟨st', before ++ next answer :: after⟩
  /-- Others came in between. -/
  | meanwhile {acts : List Act} {st st' : σ} {programs : List (Work Unit)}
      (run : Run W calls start acts ⟨st, programs⟩) (h : W.meanwhile st st') :
      Run W calls start acts ⟨st', programs⟩

/-- Who has done something was started. -/
theorem Run.lt_length (run : Run W calls start acts pool) :
    ∀ x ∈ acts, x.number < pool.programs.length := by
  induction run with
  | nil => exact fun _ h => by cases h
  | starts _ _ ih =>
    intro x hx
    rw [List.length_append]
    exact Nat.lt_add_right _ (ih x hx)
  | asks _ _ ih =>
    rw [List.forall_mem_append]
    refine ⟨fun x hx => ?_, ?_⟩
    · simpa using ih x hx
    · simp
  | meanwhile _ _ ih => exact ih

/-- **What a program has done is a path** from the program that was called to what is left of it.

By induction on the run. The last step concerns one place of the list: a new one, for which
nothing has been done yet, or that of the program that has moved, whose path is one deed longer.
Everywhere else neither the program nor its deeds have changed. -/
theorem Run.path (run : Run W calls start acts pool) {n : Nat} {p' : Work Unit}
    (hp' : pool.programs[n]? = some p') : ∃ p, calls n p ∧ p.Path (Act.own n acts) p' := by
  induction run generalizing n p' with
  | nil => cases hp'
  | @starts acts st programs p run h ih =>
    by_cases hn : n < programs.length
    · rw [List.getElem?_append_left hn] at hp'
      exact ih hp'
    · -- only the program that was started is left, and it has not done anything
      have hlast : n = programs.length := by
        have hlt := (List.getElem?_eq_some_iff.mp hp').1
        rw [List.length_append, List.length_singleton] at hlt
        exact Nat.le_antisymm (Nat.le_of_lt_succ hlt) (Nat.le_of_not_lt hn)
      subst hlast
      rw [List.getElem?_concat_length] at hp'
      cases hp'
      have hnone : Act.own programs.length acts = [] := by
        refine List.map_eq_nil_iff.mpr (List.filter_eq_nil_iff.mpr fun x hx => ?_)
        simpa using Nat.ne_of_lt (run.lt_length x hx)
      exact ⟨p, h, hnone ▸ .nil p⟩
  | @asks acts st st' before after e next answer run h ih =>
    rw [Act.own_append]
    by_cases hn : before.length = n
    · subst hn
      rw [List.getElem?_append_right (Nat.le_refl _), Nat.sub_self] at hp'
      cases hp'
      obtain ⟨p, hp, hpath⟩ := @ih before.length (.ask e next) (by simp)
      rw [Act.own_cons_self]
      exact ⟨p, hp, hpath.concat answer⟩
    · -- another program has moved: at the place in question nothing has changed
      have hset : before ++ next answer :: after =
          (before ++ .ask e next :: after).set before.length (next answer) := by
        simp
      rw [hset, List.getElem?_set_ne hn] at hp'
      rw [Act.own_singleton_of_ne hn, List.append_nil]
      exact ih hp'
  | meanwhile _ _ ih => exact ih hp'

/-- **A program of the pool goes on**, and nobody else takes a turn meanwhile. -/
theorem Run.leads {st st' : σ} (before : List (Work Unit)) {after : List (Work Unit)}
    {p p' : Work Unit} (run : Run W calls start acts ⟨st, before ++ p :: after⟩)
    (h : Work.Leads W st p p' st') :
    ∃ acts', Run W calls start (acts ++ acts') ⟨st', before ++ p' :: after⟩ ∧
      ∀ x ∈ acts', x.number = before.length := by
  induction h generalizing acts with
  | refl st p => exact ⟨[], by rwa [List.append_nil], fun _ h => by cases h⟩
  | @ask e answer next _ _ _ _ _ others answered _ ih =>
    obtain ⟨acts', run', hnumber⟩ := ih (.asks (.meanwhile run others) answered)
    refine ⟨⟨before.length, e, answer⟩ :: acts', ?_, List.forall_mem_cons.mpr ⟨rfl, hnumber⟩⟩
    rwa [List.append_cons]

/-- **A program that is started** and goes on before anybody else takes a turn. -/
theorem Run.call {st st' : σ} {programs : List (Work Unit)} {p p' : Work Unit}
    (run : Run W calls start acts ⟨st, programs⟩) (hp : calls programs.length p)
    (h : Work.Leads W st p p' st') :
    ∃ acts', Run W calls start (acts ++ acts') ⟨st', programs ++ [p']⟩ ∧
      ∀ x ∈ acts', x.number = programs.length :=
  (Run.starts run hp).leads programs h

end Pool

end Gathering
