import Gathering.Proofs.Crew.Basic

/-!
# What is known of the sweepers of a crew

The standing of a sweeper can be read off what has happened (`Crew.standing`):
it takes the answers that the sweeper got and nothing else. As every sweep keeps
to the conduct of a sweeper, so does every sweeper in every run (`Run.obeys`).
From then on a step of a sweeper is known by the rule that allows it, and the
programs need not be looked at again.

The standing is what ties the two sides together. A program says what a sweeper will
do, but nothing of what it has done; what has happened says what it was answered,
but nothing of what it will do. `Hand.Obeys` says that what is left of the
program is something that a sweeper standing there may do. The rules are in
`Scheduler.conduct`, and that every sweep keeps them is shown once, of the program
(`Scheduler.sweep_obeys`).
-/

namespace Gathering

/-- Where a sweeper stands after a step. -/
def Standing.turn (st : Standing) : Deed → Standing
  | .asks r answer => st.after (.request r) answer
  | .finishes | .abandons => st.sent
  | _ => st

/-- **A sweeper keeps to its conduct.** One whose sends are under way stands where it stood when it
asked for them. -/
def Hand.Obeys (s : Scheduler) : Hand → Standing → Prop
  | .idle, st => Scheduler.HoldsNone st
  | .working rest, st => rest.Obeys s.conduct (fun _ => Scheduler.HoldsNone) st
  | .sending batch _ next, st =>
    Work.Obeys s.conduct (fun _ => Scheduler.HoldsNone) (.ask (.fanOut batch) next) st

namespace Hand

variable {s : Scheduler} {clock : Nat} {hand hand' : Hand} {d : Deed} {st : Standing}

theorem Step.obeys (h : Hand.Step s clock hand d hand') (hobeys : hand.Obeys s st) :
    hand'.Obeys s (st.turn d) := by
  cases h with
  | begins limit => exact Scheduler.sweep_obeys limit hobeys
  | ends _ => exact hobeys
  | asks answer => exact hobeys.2 answer
  | launches => exact hobeys
  | starts _ _ => exact hobeys
  | lands _ _ _ _ _ => exact hobeys
  | finishes _ => exact hobeys.2 _
  | abandons => exact hobeys.2 _

/-- An answer turns the standing of a sweeper. -/
theorem Step.turns {r : Request} {answer : r.Answer}
    (h : Hand.Step s clock hand (.asks r answer) hand') (hobeys : hand.Obeys s st) :
    s.Turns st r answer (st.turn (.asks r answer)) := by
  cases h with
  | asks _ => exact hobeys.1.turns answer

end Hand

namespace Crew

variable {ι : Type} [DecidableEq ι]

/-- Where a sweeper stands after something has happened. -/
def follow (i : ι) (st : Standing) : Happening ι → Standing
  | .by_ j d => if j = i then st.turn d else st
  | _ => st

/-- **Where a sweeper stands after all that has happened.** -/
def standing (i : ι) (es : List (Happening ι)) : Standing := es.foldl (follow i) .free

variable {S : Setting ι} {pace : Crew ι → Nat → Prop} {c c' : Crew ι} {e : Happening ι}
  {es : List (Happening ι)} {i j : ι}

theorem standing_append (i : ι) (es : List (Happening ι)) (e : Happening ι) :
    standing i (es ++ [e]) = follow i (standing i es) e := by
  simp [standing]

theorem follow_by_self (i : ι) (st : Standing) (d : Deed) : follow i st (.by_ i d) = st.turn d :=
  if_pos rfl

/-- **Of one sweeper, what happens is a step of its own or nothing.** -/
theorem Step.hand_cases (h : Step S pace c e c') (i : ι) :
    (∃ d, e = .by_ i d ∧ Hand.Step (S.scheduler i) c.clock (c.hands i) d (c'.hands i) ∧
      Leaves c.tasks (S.wall.elapsed c.clock) d c'.tasks ∧ c'.clock = c.clock) ∨
    (c'.hands i = c.hands i ∧ (∀ d, e ≠ .by_ i d) ∧ ∀ st, follow i st e = st) := by
  cases h with
  | @by_ d hand tasks j hstep hleaves =>
    by_cases hji : j = i
    · subst hji
      refine .inl ⟨d, rfl, ?_, hleaves, rfl⟩
      show Hand.Step _ _ _ _ (Function.update c.hands j hand j)
      rw [Function.update_self]
      exact hstep
    · refine .inr ⟨Function.update_of_ne (Ne.symm hji) _ _, fun d' hd => ?_, fun st => if_neg hji⟩
      cases hd
      exact hji rfl
  | called _ _ => exact .inr ⟨rfl, (fun _ h => by cases h), fun _ => rfl⟩
  | passed _ _ => exact .inr ⟨rfl, (fun _ h => by cases h), fun _ => rfl⟩

theorem Step.obeys (h : Step S pace c e c') {st : Standing}
    (hobeys : (c.hands i).Obeys (S.scheduler i) st) :
    (c'.hands i).Obeys (S.scheduler i) (follow i st e) := by
  rcases h.hand_cases i with ⟨d, rfl, hstep, _⟩ | ⟨hkept, _, hfollow⟩
  · rw [follow_by_self]
    exact hstep.obeys hobeys
  · rw [hkept, hfollow]
    exact hobeys

/-- **In every run every sweeper keeps to its conduct.**

By induction on the run: a step of the sweeper keeps the conduct (`Hand.Step.obeys`), and what
others do changes neither what is left of its program nor where it stands. -/
theorem Run.obeys (run : Run S pace start es c) (i : ι) :
    (c.hands i).Obeys (S.scheduler i) (standing i es) := by
  induction run with
  | nil => exact rfl
  | snoc _ step ih =>
    rw [standing_append]
    exact step.obeys ih

/-- **An answer turns the standing of the sweeper that has asked.** -/
theorem Step.turns {r : Request} {answer : r.Answer}
    (h : Step S pace c (.by_ i (.asks r answer)) c') {st : Standing}
    (hobeys : (c.hands i).Obeys (S.scheduler i) st) :
    (S.scheduler i).Turns st r answer (st.turn (.asks r answer)) := by
  rcases h.hand_cases i with ⟨d, hd, hstep, _⟩ | ⟨_, hother, _⟩
  · cases hd
    exact hstep.turns hobeys
  · exact absurd rfl (hother _)

end Crew

end Gathering
