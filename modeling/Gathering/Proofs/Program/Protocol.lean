import Gathering.Request

/-!
# Protocols of programs

What a program does next depends on what it was answered. A **protocol** says
which effects may be asked for from where one stands, and where one stands after
each answer. A program **obeys** it if it keeps to this along every path of its
tree and ends as it should, whatever the answers are.

Obedience is found out without running anything, by following the program: one
rule for an effect, one for going on with the result of a program, and one for
going on with the result of a job, whose errors end it. Whoever runs the program
between the steps of others then knows what to expect of it at each step.
-/

namespace Gathering

/-- A computation that has succeeded has succeeded in its first part. -/
theorem exists_of_bind_eq_ok {ε α β : Type} {x : Except ε α} {f : α → Except ε β} {b : β}
    (h : x >>= f = .ok b) : ∃ a, x = .ok a ∧ f a = .ok b := by
  cases x with
  | error e => cases h
  | ok a => exact ⟨a, rfl, h⟩

/-- **Rules for the effects of a program**, by where it stands. -/
structure Protocol (σ : Type) where
  /-- Which effects may be asked for. -/
  allows : σ → Effect → Prop
  /-- Where one stands after an answer. -/
  after : σ → (e : Effect) → e.Answer → σ

variable {σ α β : Type} {P : Protocol σ} {st : σ}

/-- **A program obeys a protocol** from where it stands, and its end is as it should be. -/
def Work.Obeys (P : Protocol σ) (ends : α → σ → Prop) : Work α → σ → Prop
  | .done a, st => ends a st
  | .ask e next, st =>
    P.allows st e ∧ ∀ answer, Work.Obeys P ends (next answer) (P.after st e answer)

namespace Work

variable {ends ends' : α → σ → Prop} {ends₂ : β → σ → Prop}

theorem Obeys.ask {e : Effect} {next : e.Answer → Work α} (h : P.allows st e)
    (h' : ∀ answer, (next answer).Obeys P ends (P.after st e answer)) :
    Work.Obeys P ends (.ask e next) st :=
  ⟨h, h'⟩

/-- **Going on with the result of a program.** -/
theorem Obeys.bind {p : Work α} {f : α → Work β} (h : p.Obeys P ends st)
    (h' : ∀ a st', ends a st' → (f a).Obeys P ends₂ st') : Work.Obeys P ends₂ (p >>= f) st := by
  induction p generalizing st with
  | done a => exact h' a st h
  | ask e next ih => exact .ask h.1 fun answer => ih answer (h.2 answer)

/-- A program that ends as it should also ends in any weaker way. -/
theorem Obeys.mono {p : Work α} (h : p.Obeys P ends st) (h' : ∀ a st', ends a st' → ends' a st') :
    p.Obeys P ends' st := by
  induction p generalizing st with
  | done a => exact h' a st h
  | ask e next ih => exact .ask h.1 fun answer => ih answer (h.2 answer)

theorem Obeys.call {e : Effect} {f : e.Answer → Work β} (h : P.allows st e)
    (h' : ∀ answer, (f answer).Obeys P ends₂ (P.after st e answer)) :
    Work.Obeys P ends₂ ((Program.call e : Work e.Answer) >>= f) st :=
  .ask h h'

end Work

/-- **A job obeys a protocol**: its program does, with one end for results and one for errors. -/
def Job.Obeys (P : Protocol σ) (ends : α → σ → Prop) (fails : Error → σ → Prop) (j : Job α)
    (st : σ) : Prop :=
  Work.Obeys P (fun r st' => match r with | .ok a => ends a st' | .error e => fails e st') j.run st

namespace Job

variable {ends : α → σ → Prop} {ends₂ : β → σ → Prop} {fails : Error → σ → Prop}

theorem Obeys.run {Q : σ → Prop} {j : Job α} (h : j.Obeys P (fun _ => Q) (fun _ => Q) st) :
    Work.Obeys P (fun _ => Q) (ExceptT.run j) st :=
  Work.Obeys.mono h fun r _ hr => by cases r <;> exact hr

/-- **Going on with the result of a job**; its error is the error of the whole. -/
theorem Obeys.bind {j : Job α} {f : α → Job β} (h : j.Obeys P ends fails st)
    (h' : ∀ a st', ends a st' → (f a).Obeys P ends₂ fails st') :
    Job.Obeys P ends₂ fails (j >>= f) st := by
  refine Work.Obeys.bind h fun r st' hr => ?_
  cases r with
  | ok a => exact h' a st' hr
  | error e => exact hr

theorem Obeys.pure {a : α} (h : ends a st) : Job.Obeys P ends fails (Pure.pure a) st := h

theorem Obeys.throw {e : Error} (h : fails e st) :
    Job.Obeys P ends fails (MonadExcept.throw e) st :=
  h

theorem Obeys.lift {e : Effect} {f : e.Answer → Job β} (h : P.allows st e)
    (h' : ∀ answer, (f answer).Obeys P ends₂ fails (P.after st e answer)) :
    Job.Obeys P ends₂ fails (ExceptT.lift (Program.call e) >>= f) st :=
  Work.Obeys.ask h h'

theorem Obeys.liftBind {p : Work α} {f : α → Job β} (h : p.Obeys P ends st)
    (h' : ∀ a st', ends a st' → (f a).Obeys P ends₂ fails st') :
    Job.Obeys P ends₂ fails (ExceptT.lift p >>= f) st := by
  show Work.Obeys P _ ((ExceptT.lift p >>= f).run) st
  rw [ExceptT.run_bind_lift]
  exact Work.Obeys.bind h h'

theorem Obeys.checked {r : Except Error α} {f : α → Job β}
    (hok : ∀ a, r = .ok a → (f a).Obeys P ends₂ fails st)
    (hfails : ∀ e, r = .error e → fails e st) :
    Job.Obeys P ends₂ fails (Job.checked r >>= f) st := by
  cases r with
  | ok a => exact hok a rfl
  | error e => exact hfails e rfl

theorem Obeys.found {kind id : String} {o : Option α} {f : α → Job β}
    (hsome : ∀ a, o = some a → (f a).Obeys P ends₂ fails st)
    (hnone : o = none → fails (.notFound kind id) st) :
    Job.Obeys P ends₂ fails (Job.found kind id o >>= f) st := by
  cases o with
  | some a => exact hsome a rfl
  | none => exact hnone rfl

theorem Obeys.tasks {call : TaskStore.Call} {f : call.Answer → Job β}
    (h : P.allows st (.request (.tasks call)))
    (hok : ∀ a, (f a).Obeys P ends₂ fails (P.after st (.request (.tasks call)) (.ok a)))
    (hfails : ∀ e, fails e (P.after st (.request (.tasks call)) (.error e))) :
    Job.Obeys P ends₂ fails (Job.tasks call >>= f) st := by
  refine Work.Obeys.ask h fun answer => ?_
  cases answer with
  | ok a => exact hok a
  | error e => exact hfails e

theorem Obeys.roster {call : Roster.Call} {f : call.Answer → Job β}
    (h : P.allows st (.request (.roster call)))
    (hok : ∀ a, (f a).Obeys P ends₂ fails (P.after st (.request (.roster call)) (.ok a)))
    (hfails : ∀ e, fails e (P.after st (.request (.roster call)) (.error e))) :
    Job.Obeys P ends₂ fails (Job.roster call >>= f) st := by
  refine Work.Obeys.ask h fun answer => ?_
  cases answer with
  | ok a => exact hok a
  | error e => exact hfails e

theorem Obeys.trail {call : Trail.Call} {f : call.Answer → Job β}
    (h : P.allows st (.request (.trail call)))
    (hok : ∀ a, (f a).Obeys P ends₂ fails (P.after st (.request (.trail call)) (.ok a)))
    (hfails : ∀ e, fails e (P.after st (.request (.trail call)) (.error e))) :
    Job.Obeys P ends₂ fails (Job.trail call >>= f) st := by
  refine Work.Obeys.ask h fun answer => ?_
  cases answer with
  | ok a => exact hok a
  | error e => exact hfails e

end Job

/-! ## Protocols without a state

Often it is enough to know what a program may ask for at all. Then there is only one place to
stand, and the end does not matter. -/

/-- **The protocol that always allows the same effects.** -/
def Protocol.always (allows : Effect → Prop) : Protocol Unit where
  allows _ := allows
  after _ _ _ := ()

/-- **A program asks for such effects only**, whatever the answers are. -/
abbrev Work.Asks (allows : Effect → Prop) (p : Work α) : Prop :=
  p.Obeys (.always allows) (fun _ _ => True) ()

theorem Work.Asks.mono {allows allows' : Effect → Prop} {p : Work α} (h : p.Asks allows)
    (h' : ∀ e, allows e → allows' e) : p.Asks allows' := by
  induction p with
  | done a => trivial
  | ask e next ih => exact ⟨h' e h.1, fun answer => ih answer (h.2 answer)⟩

/-- A job asks for such effects only. -/
abbrev Job.Asks (allows : Effect → Prop) (j : Job α) : Prop :=
  j.Obeys (.always allows) (fun _ _ => True) (fun _ _ => True) ()

theorem Job.Asks.cache {allows : Effect → Prop} {call : Cache.Call}
    (h : allows (.request (.cache call))) : (Job.cache call).Asks allows :=
  Work.Obeys.ask h fun answer => by cases answer <;> trivial

theorem Job.Asks.run {allows : Effect → Prop} {j : Job α} (h : j.Asks allows) :
    Work.Asks allows (ExceptT.run j) :=
  Job.Obeys.run (Q := fun _ => True) h

end Gathering
