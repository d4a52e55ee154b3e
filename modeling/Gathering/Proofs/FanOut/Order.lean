import Gathering.Proofs.FanOut.Course
import Gathering.Proofs.Sorting

/-!
# In which order sends end

Sends are started in the order of the targets and end in another order. The machine
finds it step by step, always ending the send that ends first of those under way. In
the end it is an order of all sends: by the time at which they end, and among those
that end at one instant, by when they were started. So the list of what has ended is
the log, sorted by the ends with a sort that keeps the order of equals
(`FanOut.Course.ended_eq`).

The reason is in one invariant. When a send is under way and one that was started
later has ended, that one had to end strictly earlier (`FanOut.Course.pairwise_overtaken`).
-/

namespace Gathering.FanOut

variable {τ ρ : Type}

/-- One send ends no later than another. -/
def EndsBy (x y : Flight τ × ρ) : Prop := x.1.endsAt ≤ y.1.endsAt

instance (x y : Flight τ × ρ) : Decidable (EndsBy x y) :=
  inferInstanceAs (Decidable (x.1.endsAt ≤ y.1.endsAt))

instance : Std.Total (EndsBy (τ := τ) (ρ := ρ)) := ⟨fun _ _ => Nat.le_total _ _⟩

instance : IsTrans (Flight τ × ρ) EndsBy := ⟨fun _ _ _ => Nat.le_trans⟩

/-! ## The order in a course -/

variable {late : ρ} {first fan : FanOut τ ρ} {begun now : Nat} {log : List (Send τ ρ)}

/-- What has ended has ended by now. -/
theorem Course.endsAt_le_now (h : Course late first begun log now fan) :
    ∀ x ∈ Send.ended log, x.1.endsAt ≤ now := by
  induction h with
  | begin => exact fun _ h => by cases h
  | start _ _ _ ih => simpa using ih
  | @land before after now fan f course _ _ _ result _ ih =>
    rw [Send.ended_append, Send.ended_cons_none] at ih
    rw [Send.ended_append, Send.ended_cons_some]
    intro x hx
    rcases List.mem_append.mp hx with hx | hx
    · exact Nat.le_trans (ih x (List.mem_append_left _ hx)) (Nat.le_max_left _ _)
    · rcases List.mem_cons.mp hx with rfl | hx
      · exact Nat.le_max_right _ _
      · exact Nat.le_trans (ih x (List.mem_append_right _ hx)) (Nat.le_max_left _ _)
  | pass _ _ _ hle _ ih => exact fun x hx => Nat.le_trans (ih x hx) hle

/-- **A send under way ends later than those that were started after it and have ended.**

A send ends only when it is the first to end of those under way, and of several that end at the
same time the one that was started first goes first. -/
theorem Course.pairwise_overtaken (h : Course late first begun log now fan) :
    log.Pairwise fun x y => ∀ r, x.result = none → y.result = some r →
      y.flight.endsAt < x.flight.endsAt := by
  induction h with
  | begin => exact .nil
  | start _ _ _ ih =>
    refine List.pairwise_append.mpr ⟨ih, List.pairwise_singleton _ _, fun x _ y hy r _ hr => ?_⟩
    rw [List.mem_singleton.mp hy] at hr
    cases hr
  | @land before after now fan f course _ hbefore _ result _ ih =>
    obtain ⟨hold, hcons, hcross⟩ := List.pairwise_append.mp ih
    obtain ⟨hf, hnew⟩ := List.pairwise_cons.mp hcons
    refine List.pairwise_append.mpr ⟨hold, List.pairwise_cons.mpr ⟨fun y hy r hr _ => ?_, hnew⟩,
      fun x hx y hy r hxr hyr => ?_⟩
    · cases hr
    · rcases List.mem_cons.mp hy with rfl | hy
      · refine hbefore x.flight (Send.mem_underWay_iff.mpr ?_)
        rw [← hxr]
        exact hx
      · exact hcross x hx y (List.mem_cons_of_mem _ hy) r hxr hyr
  | pass _ _ _ _ _ ih => exact ih

/-- **What has ended is the log, sorted by the ends.**

By induction on the course. A send that ends goes to the end of what has ended, and that is where
it belongs: those that have ended already have ended by now, and if one of them was started later,
it has ended strictly earlier. -/
theorem Course.ended_eq (h : Course late first begun log now fan) (hfirst : first.flying = [])
    (hended : first.ended = []) (hwidth : 0 < first.width) :
    fan.ended = (Send.ended log).insertionSort EndsBy := by
  induction h with
  | begin => exact hended
  | start _ _ _ ih => simpa [FanOut.start] using ih
  | @land before after now fan f course _ _ _ result _ ih =>
    have hnow := course.endsAt_le_now
    have hlate := course.pairwise_overtaken
    have hends := (course.paced hfirst hwidth).clock_le_endsAt f (by
      rw [course.flying_eq hfirst]
      simp)
    rw [Send.ended_append, Send.ended_cons_none] at ih hnow
    show fan.ended ++ [(f, result)] = _
    rw [Send.ended_append, Send.ended_cons_some, ih]
    refine (insertionSort_append_cons (fun x hx => ?_) fun x hx hle => ?_).symm
    · exact Nat.le_trans (hnow x (List.mem_append_left _ hx)) hends
    · obtain ⟨-, hcons, -⟩ := List.pairwise_append.mp hlate
      have hlt := (List.pairwise_cons.mp hcons).1 _ (Send.mem_ended_iff.mp hx) _ rfl rfl
      exact Nat.not_le.mpr hlt hle
  | pass _ _ _ _ _ ih => exact ih

end Gathering.FanOut
