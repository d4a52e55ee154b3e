import Gathering.Proofs.FanOut.Order
import Mathlib.Data.List.Forall2

/-!
# What becomes of sends

How long a send takes and what it returns is its **fate**. A send is cut off if it would
take longer than it may, and then what it returns does not matter.

In every course the sends meet some fates (`FanOut.Course.exists_fates`). And fates can
be given to the sends as one likes, because nothing that happens to one of them changes
what becomes of another: there is a course to the end in which each send meets its own
(`FanOut.exists_course`).

The second statement is what a claim about all outcomes needs: to say what happens
if some sends are late and others fail, one has to know that this can happen in
every combination.
-/

namespace Gathering.FanOut

variable {τ ρ : Type}

/-- **How long a send takes if it is let, and what it returns.** -/
structure Fate (ρ : Type) where
  /-- How long it takes. -/
  duration : Nat
  /-- What it returns. -/
  returns : ρ

/-- **What comes of a send of a fate**: what it returns, unless it is cut off. -/
def Fate.result (limit : Nat) (late : ρ) (fate : Fate ρ) : ρ :=
  if limit < fate.duration then late else fate.returns

/-- **A send meets its fate.** -/
structure Send.Meets (limit : Nat) (late : ρ) (fate : Fate ρ) (x : Send τ ρ) : Prop where
  /-- It ends when it is done, or when it is cut off. -/
  endsAt_eq : x.flight.endsAt = x.flight.startedAt + min fate.duration limit
  /-- It is cut off if it would take longer than it may. -/
  cutOff_eq : x.flight.cutOff = decide (limit < fate.duration)
  /-- Something comes of it only as it was to be. -/
  result_eq : ∀ r, x.result = some r → r = fate.result limit late

/-- A good result comes of sends that are in time and good, if being late is not good. -/
theorem Fate.result_eq_iff {limit : Nat} {late good : ρ} {fate : Fate ρ} (hlate : late ≠ good) :
    fate.result limit late = good ↔ fate.duration ≤ limit ∧ fate.returns = good := by
  unfold result
  split
  · next hlt => exact ⟨fun h => absurd h hlate, fun h => absurd hlt (Nat.not_lt.mpr h.1)⟩
  · next hle => exact ⟨fun h => ⟨Nat.not_lt.mp hle, h⟩, fun h => h.2⟩

/-- **What comes of sends that have met their fates** is what was to come of them. -/
theorem Send.forall_iff_of_meets {limit : Nat} {late : ρ} {fates : List (Fate ρ)}
    {sends : List (Flight τ × ρ)} (h : List.Forall₂ (Send.Meets limit late) fates (sends.map done))
    (p : ρ → Prop) : (∀ x ∈ sends, p x.2) ↔ ∀ fate ∈ fates, p (fate.result limit late) := by
  induction sends generalizing fates with
  | nil =>
    obtain rfl := List.forall₂_nil_right_iff.mp h
    exact ⟨(fun _ _ h => by cases h), fun _ _ h => by cases h⟩
  | cons x sends ih =>
    rw [List.map_cons, List.forall₂_cons_right_iff] at h
    obtain ⟨fate, fates, hmeets, hrest, rfl⟩ := h
    rw [List.forall_mem_cons, List.forall_mem_cons, ih hrest, hmeets.result_eq x.2 rfl]

variable {late : ρ} {first fan : FanOut τ ρ} {begun now : Nat} {log : List (Send τ ρ)}
  {met fates : List (Fate ρ)}

/-- The sends before and after one of a log have their fates before and after its fate. -/
theorem Send.exists_split_of_meets {limit : Nat} {before after : List (Send τ ρ)} {x : Send τ ρ}
    (h : List.Forall₂ (Send.Meets limit late) met (before ++ x :: after)) :
    ∃ earlier fate later, met = earlier ++ fate :: later ∧ x.Meets limit late fate ∧
      List.Forall₂ (Send.Meets limit late) earlier before ∧
      List.Forall₂ (Send.Meets limit late) later after := by
  obtain ⟨fate, later, hmeets, hlater, hdrop⟩ :=
    List.forall₂_cons_right_iff.mp (List.forall₂_drop_append met before _ h)
  refine ⟨met.take before.length, fate, later, ?_, hmeets,
    List.forall₂_take_append met before _ h, hlater⟩
  rw [← hdrop, List.take_append_drop]

/-- **Every course is one in which the sends meet some fates.** -/
theorem Course.exists_fates (h : Course late first begun log now fan) :
    ∃ fates, List.Forall₂ (Send.Meets first.limit late) fates log := by
  induction h with
  | begin => exact ⟨[], .nil⟩
  | @start log now fan t ts course _ duration ih =>
    obtain ⟨fates, hmeets⟩ := ih
    refine ⟨fates ++ [⟨duration, late⟩], List.rel_append hmeets (.cons ?_ .nil)⟩
    rw [← course.width_eq.2]
    exact ⟨rfl, rfl, fun _ h => by cases h⟩
  | @land before after now fan f _ _ _ _ result hresult ih =>
    obtain ⟨met, hmeets⟩ := ih
    obtain ⟨earlier, fate, later, rfl, hfate, hearlier, hlater⟩ :=
      Send.exists_split_of_meets hmeets
    refine ⟨earlier ++ ⟨fate.duration, result⟩ :: later,
      List.rel_append hearlier (.cons ⟨hfate.endsAt_eq, hfate.cutOff_eq, fun r hr => ?_⟩ hlater)⟩
    -- a send that is cut off is late, whatever it would have returned
    cases hr
    unfold Fate.result
    split
    · next hlt => exact hresult (hfate.cutOff_eq.trans (decide_eq_true hlt))
    · rfl
  | pass _ _ _ _ _ ih => exact ih

/-- **A course in which the sends meet their fates goes on by one step**, as long as it is not
over: the next send is started, with the next fate, or the send that ends first has ended.

So the fates are dealt out in the order in which the sends are started, and that is the order of
the targets. -/
theorem Course.exists_next (h : Course late first begun log now fan) (hfirst : first.flying = [])
    (hwidth : 0 < first.width) (hmet : List.Forall₂ (Send.Meets first.limit late) met log)
    (hlength : fates.length = fan.waiting.length) (hleft : 0 < fan.stepsLeft) :
    ∃ log' now' fan' met' fates', Course late first begun log' now' fan' ∧
      List.Forall₂ (Send.Meets first.limit late) met' log' ∧ met' ++ fates' = met ++ fates ∧
      fates'.length = fan'.waiting.length ∧ fan'.stepsLeft + 1 = fan.stepsLeft := by
  cases hstart : fan.startable? with
  | some t =>
    obtain ⟨t, ts⟩ := t
    obtain ⟨hwaiting, -⟩ := startable?_eq_some_iff.mp hstart
    rw [hwaiting, List.length_cons] at hlength
    obtain ⟨fate, fates, rfl⟩ := List.exists_cons_of_length_eq_add_one hlength
    have hnew : Send.Meets first.limit late fate
        (⟨fan.flight t now fate.duration, none⟩ : Send τ ρ) := by
      rw [← h.width_eq.2]
      exact ⟨rfl, rfl, fun _ h => by cases h⟩
    refine ⟨_, _, _, _, fates, h.start hstart fate.duration, List.rel_append hmet (.cons hnew .nil),
      (List.append_cons met fate fates).symm, ?_, ?_⟩
    · simpa [FanOut.start] using hlength
    · simp only [stepsLeft, FanOut.start, hwaiting, List.length_append, List.length_cons,
        List.length_nil]
      omega
  | none =>
    cases hsoonest : soonest fan.flying with
    | none =>
      -- nobody waits if nothing can be started and nothing is under way
      have hflying := soonest_eq_none_iff.mp hsoonest
      have hwaiting : fan.waiting = [] := by
        refine (startable?_eq_none_iff.mp hstart).resolve_right fun hle => ?_
        rw [hflying, h.width_eq.1] at hle
        exact absurd hwidth (Nat.not_lt.mpr hle)
      rw [stepsLeft, hwaiting, hflying] at hleft
      cases hleft
    | some f =>
      obtain ⟨f, others⟩ := f
      obtain ⟨before, after, hflying, -, hbefore, hafter⟩ := exists_split_of_soonest hsoonest
      rw [h.flying_eq hfirst] at hflying
      obtain ⟨before, after, rfl, rfl, rfl⟩ := Send.exists_split_of_underWay hflying
      obtain ⟨earlier, fate, later, rfl, hfate, hearlier, hlater⟩ := Send.exists_split_of_meets hmet
      -- what comes of the send is what its fate says, also if it is cut off
      have hlanded : Send.Meets first.limit late fate
          (⟨f, some (fate.result first.limit late)⟩ : Send τ ρ) :=
        ⟨hfate.endsAt_eq, hfate.cutOff_eq, fun r hr => (Option.some.inj hr).symm⟩
      have hlate : f.cutOff = true → fate.result first.limit late = late := fun hcut => by
        rw [hfate.cutOff_eq] at hcut
        exact if_pos (of_decide_eq_true hcut)
      refine ⟨_, _, _, _, fates, h.land hstart hbefore hafter _ hlate,
        List.rel_append hearlier (.cons hlanded hlater), rfl, hlength, ?_⟩
      simp only [stepsLeft, h.flying_eq hfirst, FanOut.land, Send.underWay_append,
        Send.underWay_cons_none, List.length_append, List.length_cons]
      omega

/-- A course in which the sends meet their fates goes on to its end so that all others meet
theirs. -/
theorem Course.exists_over (h : Course late first begun log now fan) (hfirst : first.flying = [])
    (hwidth : 0 < first.width) (hmet : List.Forall₂ (Send.Meets first.limit late) met log)
    (hlength : fates.length = fan.waiting.length) :
    ∃ log' now' fan', Course late first begun log' now' fan' ∧ fan'.isOver = true ∧
      List.Forall₂ (Send.Meets first.limit late) (met ++ fates) log' := by
  generalize hn : fan.stepsLeft = n
  induction n generalizing log now fan met fates with
  | zero =>
    unfold stepsLeft at hn
    have hwaiting : fan.waiting = [] := List.eq_nil_of_length_eq_zero (by omega)
    have hflying : fan.flying = [] := List.eq_nil_of_length_eq_zero (by omega)
    rw [hwaiting] at hlength
    rw [List.eq_nil_of_length_eq_zero hlength, List.append_nil]
    exact ⟨log, now, fan, h, by simp [isOver, hwaiting, hflying], hmet⟩
  | succ n ih =>
    obtain ⟨log₁, now₁, fan₁, met₁, fates₁, h₁, hmet₁, hfates, hlength₁, hleft⟩ :=
      h.exists_next hfirst hwidth hmet hlength (by omega)
    rw [← hfates]
    exact ih h₁ hmet₁ hlength₁ (by omega)

/-- **Whatever the fates, there is a course to the end in which the sends meet them.** -/
theorem exists_course (hflying : first.flying = []) (hwidth : 0 < first.width)
    (hlength : fates.length = first.waiting.length) (begun : Nat) :
    ∃ log now fan, Course late first begun log now fan ∧ fan.isOver = true ∧
      List.Forall₂ (Send.Meets first.limit late) fates log :=
  Course.begin.exists_over hflying hwidth .nil hlength

end Gathering.FanOut
