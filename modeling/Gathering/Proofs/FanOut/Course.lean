import Gathering.Proofs.FanOut.Pace

/-!
# The course of a fan-out

A fan-out starts its sends in the order of the targets and ends them in the order
of time. Its **course** is told as it goes: the log has an entry for each send that
was started, in this order, with what came of it once it has ended
(`FanOut.Course`). How long a send takes and what comes of it is free, but a send
that is cut off is known to be late.

Every step of the machine continues the course (`Course.step`), whoever it runs
for, and so does a run to the end (`Course.run`) or up to an instant
(`Course.runUntil`). A run to the end does get there.
-/

namespace Gathering.FanOut

variable {τ ρ σ : Type}

/-- **A send that was started**, and what came of it if it has ended. -/
structure Send (τ ρ : Type) where
  /-- The send. -/
  flight : Flight τ
  /-- What came of it. -/
  result : Option ρ

namespace Send

variable {log log' : List (Send τ ρ)} {f : Flight τ} {r : ρ}

/-- The sends under way. -/
def underWay (log : List (Send τ ρ)) : List (Flight τ) :=
  log.filterMap fun x => if x.result.isNone then some x.flight else none

/-- The sends that have ended, in the order in which they were started. -/
def ended (log : List (Send τ ρ)) : List (Flight τ × ρ) :=
  log.filterMap fun x => x.result.map (x.flight, ·)

/-- A send that has ended. -/
def done (x : Flight τ × ρ) : Send τ ρ := ⟨x.1, some x.2⟩

@[simp] theorem underWay_nil : underWay ([] : List (Send τ ρ)) = [] := rfl

@[simp] theorem underWay_append : underWay (log ++ log') = underWay log ++ underWay log' :=
  List.filterMap_append

@[simp] theorem underWay_cons_none : underWay (⟨f, none⟩ :: log) = f :: underWay log := rfl

@[simp] theorem underWay_cons_some : underWay (⟨f, some r⟩ :: log) = underWay log := rfl

@[simp] theorem ended_nil : ended ([] : List (Send τ ρ)) = [] := rfl

@[simp] theorem ended_append : ended (log ++ log') = ended log ++ ended log' :=
  List.filterMap_append

@[simp] theorem ended_cons_none : ended (⟨f, none⟩ :: log) = ended log := rfl

@[simp] theorem ended_cons_some : ended (⟨f, some r⟩ :: log) = (f, r) :: ended log := rfl

theorem mem_underWay_iff : f ∈ underWay log ↔ ⟨f, none⟩ ∈ log := by
  unfold underWay
  rw [List.mem_filterMap]
  constructor
  · rintro ⟨⟨g, result⟩, hmem, h⟩
    cases result <;> cases h
    exact hmem
  · exact fun h => ⟨_, h, rfl⟩

theorem mem_ended_iff {x : Flight τ × ρ} : x ∈ ended log ↔ ⟨x.1, some x.2⟩ ∈ log := by
  unfold ended
  rw [List.mem_filterMap]
  constructor
  · rintro ⟨⟨g, result⟩, hmem, h⟩
    cases result <;> cases h
    exact hmem
  · exact fun h => ⟨_, h, rfl⟩

/-- A send under way has its entry, with the others under way before and after it. -/
theorem exists_split_of_underWay {before after : List (Flight τ)}
    (h : underWay log = before ++ f :: after) :
    ∃ first last, log = first ++ ⟨f, none⟩ :: last ∧ underWay first = before ∧
      underWay last = after := by
  obtain ⟨first, rest, rfl, hfirst, hrest⟩ := List.filterMap_eq_append_iff.mp h
  obtain ⟨skipped, ⟨g, result⟩, last, rfl, hskipped, hg, hlast⟩ :=
    List.filterMap_eq_cons_iff.mp hrest
  cases result with
  | some r => cases hg
  | none =>
    cases hg
    refine ⟨first ++ skipped, last, by rw [List.append_assoc], ?_, hlast⟩
    rw [underWay_append, show underWay skipped = [] from List.filterMap_eq_nil_iff.mpr hskipped,
      List.append_nil]
    exact hfirst

theorem eq_map_done (h : underWay log = []) : log = (ended log).map done := by
  induction log with
  | nil => rfl
  | cons x log ih =>
    obtain ⟨f, result⟩ := x
    cases result with
    | none => cases h
    | some r => exact congrArg (⟨f, some r⟩ :: ·) (ih h)

end Send

/-! ## The send that ends first

Of the sends under way the machine ends the one whose end is the earliest, and of several with the
same end the one that was started first. The list of those under way is in the order of the
starts, so this is the first of the earliest. -/

variable {flying others : List (Flight τ)} {f : Flight τ}

theorem soonest_eq_none_iff : soonest flying = none ↔ flying = [] := by
  cases flying with
  | nil => exact ⟨fun _ => rfl, fun _ => rfl⟩
  | cons f fs =>
    unfold soonest
    cases soonest fs with
    | none => simp
    | some g => dsimp only; split <;> simp

/-- **The send that ends first** ends before those that were started earlier, and not after those
that were started later.

By induction on the sends under way: the first one is compared with the soonest of the others, and
it is preferred if both end at the same time. -/
theorem exists_split_of_soonest (h : soonest flying = some (f, others)) :
    ∃ before after, flying = before ++ f :: after ∧ others = before ++ after ∧
      (∀ g ∈ before, f.endsAt < g.endsAt) ∧ ∀ g ∈ after, f.endsAt ≤ g.endsAt := by
  induction flying generalizing f others with
  | nil => cases h
  | cons first flying ih =>
    unfold soonest at h
    cases hsoonest : soonest flying with
    | none =>
      rw [hsoonest] at h
      cases h
      obtain rfl := soonest_eq_none_iff.mp hsoonest
      exact ⟨[], [], rfl, rfl, (fun _ h => by cases h), fun _ h => by cases h⟩
    | some g =>
      obtain ⟨g, rest⟩ := g
      rw [hsoonest] at h
      obtain ⟨before, after, rfl, rfl, hbefore, hafter⟩ := ih hsoonest
      dsimp only at h
      split at h
      · next hle =>
        cases h
        refine ⟨[], _, rfl, rfl, (fun _ h => by cases h), fun x hx => ?_⟩
        -- whatever ends no earlier than the soonest of the others
        rcases List.mem_append.mp hx with hx | hx
        · exact Nat.le_trans hle (Nat.le_of_lt (hbefore x hx))
        · rcases List.mem_cons.mp hx with rfl | hx
          · exact hle
          · exact Nat.le_trans hle (hafter x hx)
      · next hlt =>
        cases h
        exact ⟨first :: before, after, rfl, rfl,
          List.forall_mem_cons.mpr ⟨Nat.not_le.mp hlt, hbefore⟩, hafter⟩

/-! ## Courses

A course says more than a run of the machine: it has a log with a place for every send, in which
the sends that are under way have no result yet. It says less about time, since a course may be
looked at at any moment up to the next end. -/

/-- **The course of sends** from when they were begun up to a time, with the log of the sends that
were started. A send may take any time, and what comes of it may be anything, unless it is cut
off. -/
inductive Course (late : ρ) (first : FanOut τ ρ) (begun : Nat) :
    List (Send τ ρ) → Nat → FanOut τ ρ → Prop
  /-- Nothing has happened. -/
  | begin : Course late first begun [] begun first
  /-- A send was started. -/
  | start {log : List (Send τ ρ)} {now : Nat} {fan : FanOut τ ρ} {t : τ} {ts : List τ}
      (course : Course late first begun log now fan) (h : fan.startable? = some (t, ts))
      (duration : Nat) :
      Course late first begun (log ++ [⟨fan.flight t now duration, none⟩]) now
        (fan.start (fan.flight t now duration) ts)
  /-- The send that ends first has ended; of several the one that was started first. -/
  | land {before after : List (Send τ ρ)} {now : Nat} {fan : FanOut τ ρ} {f : Flight τ}
      (course : Course late first begun (before ++ ⟨f, none⟩ :: after) now fan)
      (hfull : fan.startable? = none) (hbefore : ∀ g ∈ Send.underWay before, f.endsAt < g.endsAt)
      (hafter : ∀ g ∈ Send.underWay after, f.endsAt ≤ g.endsAt) (result : ρ)
      (hresult : f.cutOff = true → result = late) :
      Course late first begun (before ++ ⟨f, some result⟩ :: after) (max now f.endsAt)
        (fan.land f (Send.underWay before ++ Send.underWay after) result)
  /-- Time has passed in which no send could be started and none has ended. -/
  | pass {log : List (Send τ ρ)} {now later : Nat} {fan : FanOut τ ρ}
      (course : Course late first begun log now fan) (hfull : fan.startable? = none)
      (hflying : fan.flying ≠ []) (hle : now ≤ later) (h : ∀ f ∈ fan.flying, later ≤ f.endsAt) :
      Course late first begun log later fan

/-- **A carrier by whom sends that are cut off are late.** -/
def Carrier.IsBounded (carrier : Carrier τ ρ σ) (late : ρ) : Prop :=
  ∀ s f, f.cutOff = true → (carrier.outcome s f).1 = late

variable {late : ρ} {first fan fan' : FanOut τ ρ} {begun now now' : Nat} {log : List (Send τ ρ)}
  {carrier : Carrier τ ρ σ} {s s' : σ}

/-- The sends under way are those that the log says. -/
theorem Course.flying_eq (h : Course late first begun log now fan) (hfirst : first.flying = []) :
    fan.flying = Send.underWay log := by
  induction h with
  | begin => exact hfirst
  | start _ _ _ ih => simp [FanOut.start, ih]
  | land _ _ _ _ _ _ _ => simp [FanOut.land]
  | pass _ _ _ _ _ ih => exact ih

/-- **When a course is over, all sends have ended**, and nobody waits for one. -/
theorem Course.of_isOver (h : Course late first begun log now fan) (hfirst : first.flying = [])
    (hover : fan.isOver = true) : log = (Send.ended log).map .done ∧ fan.waiting = [] := by
  obtain ⟨hwaiting, hflying⟩ := Bool.and_eq_true_iff.mp hover
  rw [h.flying_eq hfirst] at hflying
  exact ⟨Send.eq_map_done (List.isEmpty_iff.mp hflying), List.isEmpty_iff.mp hwaiting⟩

theorem Course.width_eq (h : Course late first begun log now fan) :
    fan.width = first.width ∧ fan.limit = first.limit := by
  induction h with
  | begin => exact ⟨rfl, rfl⟩
  | start _ _ _ ih => exact ih
  | land _ _ _ _ _ _ ih => exact ih
  | pass _ _ _ _ _ ih => exact ih

/-- **Sends are started in the order of the targets**, one to each. -/
theorem Course.targets_eq (h : Course late first begun log now fan) :
    log.map (·.flight.target) ++ fan.waiting = first.waiting := by
  induction h with
  | begin => rfl
  | start _ hstart _ ih =>
    obtain ⟨hwaiting, -⟩ := startable?_eq_some_iff.mp hstart
    rw [← ih, hwaiting]
    simp [FanOut.start, flight]
  | land _ _ _ _ _ _ ih =>
    rw [← ih]
    simp [FanOut.land]
  | pass _ _ _ _ _ ih => exact ih

/-- **Sends are started one after the other**: those that are further on in the log no earlier. -/
theorem Course.pairwise_startedAt (h : Course late first begun log now fan) :
    log.Pairwise (·.flight.startedAt ≤ ·.flight.startedAt) ∧
      ∀ x ∈ log, x.flight.startedAt ≤ now := by
  induction h with
  | begin => exact ⟨.nil, fun _ h => by cases h⟩
  | @start log now fan t ts _ _ duration ih =>
    refine ⟨List.pairwise_append.mpr ⟨ih.1, List.pairwise_singleton _ _, fun x hx y hy => ?_⟩, ?_⟩
    · rw [List.mem_singleton.mp hy]
      exact ih.2 x hx
    · exact List.forall_mem_append.mpr ⟨ih.2, List.forall_mem_singleton.mpr (Nat.le_refl _)⟩
  | @land before after now fan f _ _ _ _ result _ ih =>
    -- what comes of a send does not change when it was started
    have hstarts : (before ++ ⟨f, some result⟩ :: after).map (·.flight.startedAt) =
        (before ++ (⟨f, none⟩ : Send τ ρ) :: after).map (·.flight.startedAt) := by
      simp
    have hpairwise := List.pairwise_map.mpr ih.1
    rw [← hstarts] at hpairwise
    refine ⟨List.pairwise_map.mp hpairwise, fun x hx => ?_⟩
    have hmem : x.flight.startedAt ∈ (before ++ (⟨f, none⟩ : Send τ ρ) :: after).map
        (·.flight.startedAt) := hstarts ▸ List.mem_map_of_mem hx
    obtain ⟨y, hy, hstart⟩ := List.mem_map.mp hmem
    rw [← hstart]
    exact Nat.le_trans (ih.2 y hy) (Nat.le_max_left _ _)
  | pass _ _ _ hle _ ih => exact ⟨ih.1, fun x hx => Nat.le_trans (ih.2 x hx) hle⟩

/-! ## The pace of a course

That a fan-out is over in time was shown of the machine's steps (`FanOut.Paced`). A course takes
the same steps, so it keeps the same pace. -/

/-- **No more sends are under way than may be.** -/
theorem Course.length_flying_le (h : Course late first begun log now fan)
    (hfirst : first.flying = []) : fan.flying.length ≤ first.width := by
  induction h with
  | begin => simp [hfirst]
  | start course hstart _ ih =>
    obtain ⟨-, hroom⟩ := startable?_eq_some_iff.mp hstart
    rw [course.width_eq.1] at hroom
    simp only [FanOut.start, List.length_append, List.length_singleton]
    exact hroom
  | land course _ _ _ _ _ ih =>
    simp only [course.flying_eq hfirst, FanOut.land, Send.underWay_append,
      Send.underWay_cons_none, List.length_append, List.length_cons] at ih ⊢
    omega
  | pass _ _ _ _ _ ih => exact ih

/-- **A course keeps its pace.** -/
theorem Course.paced (h : Course late first begun log now fan) (hfirst : first.flying = [])
    (hwidth : 0 < first.width) : Paced begun first.waiting.length fan now := by
  induction h with
  | begin => exact .begin hwidth hfirst rfl
  | start _ hstart duration ih => exact ih.start hstart duration
  | land course hfull hbefore hafter result _ ih =>
    have hflying := course.flying_eq hfirst
    rw [Send.underWay_append, Send.underWay_cons_none] at hflying
    refine (ih.pass hfull fun g hg => Nat.max_le.mpr ⟨ih.clock_le_endsAt g hg, ?_⟩).land hflying
      result
    -- no other send ends before this one
    rw [hflying] at hg
    rcases List.mem_append.mp hg with hg | hg
    · exact Nat.le_of_lt (hbefore g hg)
    · rcases List.mem_cons.mp hg with rfl | hg
      · exact Nat.le_refl _
      · exact hafter g hg
  | pass _ hfull _ _ hends ih => exact ih.pass hfull hends

/-- **Every send of a course ends with the last round** at the latest. -/
theorem Course.endsAt_le (h : Course late first begun log now fan) (hfirst : first.flying = [])
    (hwidth : 0 < first.width) : ∀ x ∈ log, x.flight.endsAt ≤
      begun + (first.waiting.length + first.width - 1) / first.width * first.limit := by
  have hflying {log now fan} (h : Course late first begun log now fan) (f : Flight τ)
      (hf : f ∈ fan.flying) : f.endsAt ≤
        begun + (first.waiting.length + first.width - 1) / first.width * first.limit := by
    have hend := (h.paced hfirst hwidth).endsAt_le_rounds hf
    rwa [h.width_eq.1, h.width_eq.2] at hend
  induction h with
  | begin => exact fun _ h => by cases h
  | start course hstart duration ih =>
    refine List.forall_mem_append.mpr ⟨ih, List.forall_mem_singleton.mpr ?_⟩
    exact hflying (course.start hstart duration) _ (by simp [FanOut.start])
  | land course _ _ _ _ _ ih =>
    intro x hx
    rcases List.mem_append.mp hx with hx | hx
    · exact ih x (List.mem_append_left _ hx)
    · rcases List.mem_cons.mp hx with rfl | hx
      · exact ih ⟨_, none⟩ (List.mem_append_right _ List.mem_cons_self)
      · exact ih x (List.mem_append_right _ (List.mem_cons_of_mem _ hx))
  | pass _ _ _ _ _ ih => exact ih

/-- **A course is over when the last round is.** So it takes no longer than its rounds would take
if every send were cut off. -/
theorem Course.clock_le (h : Course late first begun log now fan) (hfirst : first.flying = [])
    (hwidth : 0 < first.width) :
    now ≤ begun + (first.waiting.length + first.width - 1) / first.width * first.limit := by
  induction h with
  | begin => exact Nat.le_add_right _ _
  | start _ _ _ ih => exact ih
  | land course _ _ _ _ _ ih =>
    exact Nat.max_le.mpr ⟨ih, course.endsAt_le hfirst hwidth ⟨_, none⟩
      (List.mem_append_right _ List.mem_cons_self)⟩
  | pass course _ hflying _ hends =>
    obtain ⟨f, hf⟩ := List.exists_mem_of_ne_nil _ hflying
    refine Nat.le_trans (hends f hf) ?_
    have hend := (course.paced hfirst hwidth).endsAt_le_rounds hf
    rwa [course.width_eq.1, course.width_eq.2] at hend

/-! ## Steps of the machine

The machine keeps the sends under way and has no log. That every step of it continues a course is
what makes all that is known about courses known about the machine. -/

/-- **What a step of the machine is**: a send is started, or the one that ends first has ended. -/
theorem step?_cases (hstep : fan.step? carrier now s = some (now', fan', s')) :
    (∃ t ts, fan.startable? = some (t, ts) ∧ now' = now ∧
        fan' = fan.start (fan.flight t now (carrier.duration s t)) ts) ∨
      ∃ f others, fan.startable? = none ∧ soonest fan.flying = some (f, others) ∧
        now' = max now f.endsAt ∧ fan' = fan.land f others (carrier.outcome s f).1 := by
  unfold step? at hstep
  cases hstart : fan.startable? with
  | some t =>
    obtain ⟨t, ts⟩ := t
    rw [hstart] at hstep
    cases hstep
    exact .inl ⟨t, ts, rfl, rfl, rfl⟩
  | none =>
    rw [hstart] at hstep
    dsimp only at hstep
    cases hsoonest : soonest fan.flying with
    | none =>
      rw [hsoonest] at hstep
      cases hstep
    | some f =>
      obtain ⟨f, others⟩ := f
      rw [hsoonest] at hstep
      cases hstep
      exact .inr ⟨f, others, rfl, rfl, rfl, rfl⟩

/-- **Every step of the machine continues the course.** -/
theorem Course.step (h : Course late first begun log now fan) (hfirst : first.flying = [])
    (hcarrier : carrier.IsBounded late) (hstep : fan.step? carrier now s = some (now', fan', s')) :
    ∃ log', Course late first begun log' now' fan' := by
  rcases step?_cases hstep with
    ⟨t, ts, hstart, rfl, rfl⟩ | ⟨f, others, hfull, hsoonest, rfl, rfl⟩
  · exact ⟨_, h.start hstart _⟩
  · obtain ⟨before, after, hflying, rfl, hbefore, hafter⟩ := exists_split_of_soonest hsoonest
    rw [h.flying_eq hfirst] at hflying
    obtain ⟨before, after, rfl, rfl, rfl⟩ := Send.exists_split_of_underWay hflying
    exact ⟨_, h.land hfull hbefore hafter _ (hcarrier s f)⟩

theorem le_of_step? (hstep : fan.step? carrier now s = some (now', fan', s')) : now ≤ now' := by
  rcases step?_cases hstep with ⟨_, _, -, rfl, -⟩ | ⟨f, _, -, -, rfl, -⟩
  · exact Nat.le_refl _
  · exact Nat.le_max_left _ _

/-! ## Runs

The machine is run for as many steps as it may need. Each step uses up one of them, and as long as
there is something to do a step can be taken. -/

theorem stepsLeft_step? (hstep : fan.step? carrier now s = some (now', fan', s')) :
    fan'.stepsLeft + 1 = fan.stepsLeft := by
  rcases step?_cases hstep with
    ⟨t, ts, hstart, -, rfl⟩ | ⟨f, others, -, hsoonest, -, rfl⟩
  · obtain ⟨hwaiting, -⟩ := startable?_eq_some_iff.mp hstart
    simp only [stepsLeft, FanOut.start, hwaiting, List.length_append, List.length_cons,
      List.length_nil]
    omega
  · obtain ⟨before, after, hflying, rfl, -, -⟩ := exists_split_of_soonest hsoonest
    simp only [stepsLeft, FanOut.land, hflying, List.length_append, List.length_cons]
    omega

/-- **A fan-out that takes no step is over**, if a send can be under way at all. -/
theorem isOver_of_step? (hwidth : 0 < fan.width) (hstep : fan.step? carrier now s = none) :
    fan.isOver = true := by
  unfold step? at hstep
  cases hstart : fan.startable? with
  | some t =>
    rw [hstart] at hstep
    cases hstep
  | none =>
    rw [hstart] at hstep
    dsimp only at hstep
    cases hsoonest : soonest fan.flying with
    | some f =>
      rw [hsoonest] at hstep
      cases hstep
    | none =>
      have hflying := soonest_eq_none_iff.mp hsoonest
      have hwaiting : fan.waiting = [] := by
        refine (startable?_eq_none_iff.mp hstart).resolve_right fun hle => ?_
        rw [hflying] at hle
        exact absurd hwidth (Nat.not_lt.mpr hle)
      simp [isOver, hflying, hwaiting]

/-- **A run for so many steps continues the course**, and is over if they are enough. -/
theorem Course.runFor (n : Nat) (h : Course late first begun log now fan)
    (hfirst : first.flying = []) (hcarrier : carrier.IsBounded late) :
    ∃ log', Course late first begun log' (fan.runFor carrier n now s).1
        (fan.runFor carrier n now s).2.1 ∧
      (0 < first.width → fan.stepsLeft ≤ n → (fan.runFor carrier n now s).2.1.isOver = true) := by
  induction n generalizing now fan s log with
  | zero =>
    refine ⟨log, h, fun _ hleft => ?_⟩
    unfold stepsLeft at hleft
    have hwaiting : fan.waiting = [] := List.eq_nil_of_length_eq_zero (by omega)
    have hflying : fan.flying = [] := List.eq_nil_of_length_eq_zero (by omega)
    simp [FanOut.runFor, isOver, hwaiting, hflying]
  | succ n ih =>
    unfold FanOut.runFor
    cases hstep : fan.step? carrier now s with
    | none => exact ⟨log, h, fun hwidth _ => isOver_of_step? (h.width_eq.1 ▸ hwidth) hstep⟩
    | some next =>
      obtain ⟨now', fan', s'⟩ := next
      obtain ⟨log', h'⟩ := h.step hfirst hcarrier hstep
      obtain ⟨log'', h'', hover⟩ := ih h' (s := s')
      have hleft := stepsLeft_step? hstep
      exact ⟨log'', h'', fun hwidth hn => hover hwidth (by omega)⟩

/-- **A run to the end is a course, and it gets to the end.**

Each target needs two steps of the machine, one to start its send and one to end it, and the
machine is run for that many. -/
theorem Course.run (h : Course late first begun log now fan) (hfirst : first.flying = [])
    (hwidth : 0 < first.width) (hcarrier : carrier.IsBounded late) (s : σ) :
    ∃ log', Course late first begun log' (fan.run carrier now s).1 (fan.run carrier now s).2.1 ∧
      (fan.run carrier now s).2.1.isOver = true := by
  obtain ⟨log', h', hover⟩ := h.runFor fan.stepsLeft hfirst hcarrier (s := s)
  exact ⟨log', h', hover hwidth (Nat.le_refl _)⟩

/-- **A run up to an instant is a course**, as long as nobody runs late. -/
theorem Course.runUntil (h : Course late first begun log now fan) (hfirst : first.flying = [])
    (hcarrier : carrier.IsBounded late) (s : σ) :
    ∃ log', Course late first begun log' now (fan.runUntil carrier now s).1 := by
  unfold FanOut.runUntil
  generalize fan.stepsLeft = n
  induction n generalizing fan s log with
  | zero => exact ⟨log, h⟩
  | succ n ih =>
    unfold FanOut.runUntilFor
    cases hstep : fan.step? carrier now s with
    | none => exact ⟨log, h⟩
    | some next =>
      obtain ⟨time, fan', s'⟩ := next
      dsimp only
      split
      · next hle =>
        obtain ⟨log', h'⟩ := h.step hfirst hcarrier hstep
        obtain rfl := Nat.le_antisymm hle (le_of_step? hstep)
        exact ih h' s'
      · exact ⟨log, h⟩

end Gathering.FanOut
