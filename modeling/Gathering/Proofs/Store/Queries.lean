import Gathering.Proofs.Sorting
import Gathering.Proofs.Store.Trail

/-!
# What the history of locations answers

There are three questions to the history: for the samples of a participant from an
interval, for the latest sample of a participant, and for the latest one on the way
to an event. They find their answers in two ways. The samples of an interval are
sorted, and those of one instant stay in the order of receipt. A latest sample is
picked while going through the samples, and a sample gives way to a later one and to
a new one of the same instant.

The two ways agree (`Trail.getLast?_insertionSort`): what is picked is the last of
what is sorted. So both latest samples can be read off the samples of all time, and
the one on the way to an event is the last of those that are about the event, because
it makes no difference whether one sorts first or selects first.

The answers only ever grow. A sample that comes in later may well lie between older
ones, since devices report late, but it neither takes any of them away nor changes
their order (`Trail.history_sublist_history`). All of this together, after any calls,
is `Trail.isAnswering_after`.
-/

namespace Gathering

/-! ## The order of samples

The order compares timestamps only, so different samples may be equal in it. It is total and
transitive, which is all that sorting needs; what becomes of equal ones depends on the way of
sorting, and that is why the order of receipt has to be followed through it. -/

/-- One sample was taken no later than another. -/
def Sample.TakenBy (a b : Sample) : Prop := a.timestamp ≤ b.timestamp

instance (a b : Sample) : Decidable (a.TakenBy b) :=
  inferInstanceAs (Decidable (a.timestamp ≤ b.timestamp))

instance : Std.Total Sample.TakenBy :=
  ⟨fun _ _ => (Int.le_total _ _).imp Instant.le_iff_rank.mpr Instant.le_iff_rank.mpr⟩

instance : IsTrans Sample Sample.TakenBy := ⟨fun _ _ _ => Instant.le_trans⟩

namespace Trail

variable {samples : List Sample} {t : Trail} {p : String} {start stop : Instant}

/-- **The sample that is picked is the last of the sorted ones.**

The sample that is picked splits the samples: none before it is later, and all behind it are
earlier. Such a sample goes to the end when the samples are sorted. -/
theorem getLast?_insertionSort (samples : List Sample) :
    (samples.insertionSort Sample.TakenBy).getLast? = latestOf samples := by
  rcases latestOf_spec samples with ⟨rfl, hnone⟩ | ⟨s, -, hsome, -⟩
  · rw [hnone]
    rfl
  · obtain ⟨before, after, rfl, hbefore, hafter⟩ := isLastLatest_of_latestOf hsome
    have hstrict : ∀ b ∈ after, ¬ s.TakenBy b := fun b hb h =>
      Instant.not_lt.mpr h (hafter b hb)
    rw [hsome, insertionSort_append_cons hbefore hstrict, List.getLast?_concat]

/-- The samples of one instant are sorted already. -/
theorem pairwise_of_timestamp {u : Instant} (h : ∀ s ∈ samples, s.timestamp = u) :
    samples.Pairwise Sample.TakenBy :=
  List.pairwise_of_forall_mem_list fun a ha b hb => by
    show a.timestamp ≤ b.timestamp
    rw [h a ha, h b hb]
    exact Instant.le_refl u

/-! ## The samples of an interval

A question selects samples and sorts what it has selected. Both latest samples are questions about
all time, the one on the way to an event with a second selection. -/

/-- Whether a sample belongs to the samples of a participant from an interval. -/
def isAsked (p : String) (start stop : Instant) (s : Sample) : Bool :=
  s.participantId = p && inInterval start stop s

theorem history_eq (t : Trail) (p : String) (start stop : Instant) :
    t.history p start stop =
      (t.samples.filter (isAsked p start stop)).insertionSort Sample.TakenBy :=
  mergeSort_eq_insertionSort (r := Sample.TakenBy) _

theorem isAsked_all (p : String) (s : Sample) :
    isAsked p .first .veryLast s = decide (s.participantId = p) := by
  have hall : inInterval .first .veryLast s = true :=
    (Bool.and_eq_true _ _).mpr ⟨decide_eq_true (Instant.first_le_self _),
      decide_eq_true (Instant.self_le_veryLast _)⟩
  unfold isAsked
  rw [hall, Bool.and_true]

/-- **The latest sample of a participant is the last one of all time.** -/
theorem latestOfParticipant_eq (t : Trail) (p : String) :
    t.latestOfParticipant p = (t.history p .first .veryLast).getLast? := by
  rw [history_eq, getLast?_insertionSort, funext (isAsked_all p)]
  rfl

/-- **More samples, and none of those that were there is gone** or comes in another order.

Selecting keeps a part of a list a part, and so does sorting, since the new samples are put in
between the old ones. -/
theorem history_sublist_history {t' : Trail} (h : t.samples.Sublist t'.samples) (p : String)
    (start stop : Instant) : (t.history p start stop).Sublist (t'.history p start stop) := by
  rw [history_eq, history_eq]
  exact sublist_insertionSort_of_sublist (h.filter _)

/-! ## Calls one after the other

Only one of the four calls adds anything. So what the history holds after some calls is what they
have appended, in their order, and all else about the calls may be forgotten. -/

/-- **What calls make of a history**, one after the other. -/
def after (t : Trail) (calls : List Call) : Trail :=
  calls.foldl (fun t call => (t.perform call).2) t

/-- The sample that a call adds. -/
def Call.appended? : Call → Option Sample
  | .append s => some s
  | .latest _ _ | .latestOfParticipant _ | .history _ _ _ => none

theorem samples_perform (t : Trail) (call : Call) :
    (t.perform call).2.samples = t.samples ++ call.appended?.toList := by
  cases call with
  | append s => rfl
  | latest _ _ | latestOfParticipant _ | history _ _ _ => exact (List.append_nil _).symm

/-- **Calls add their samples**, in the order of the calls. -/
theorem samples_after (t : Trail) (calls : List Call) :
    (t.after calls).samples = t.samples ++ calls.filterMap Call.appended? := by
  induction calls generalizing t with
  | nil => exact (List.append_nil _).symm
  | cons call calls ih =>
    show ((t.perform call).2.after calls).samples = _
    rw [ih, samples_perform, List.append_assoc, List.filterMap_cons]
    cases call.appended? <;> rfl

/-! ## The answers -/

/-- **A history that answers for samples** as they were appended. -/
structure IsAnswering (t : Trail) (appended : List Sample) : Prop where
  /-- The samples of a participant from an interval are those that were appended, each as often as
  it was. -/
  perm : ∀ p start stop, (t.history p start stop).Perm
    (appended.filter fun s => s.participantId = p && start ≤ s.timestamp && s.timestamp ≤ stop)
  /-- They ascend by their timestamps. -/
  ascends : ∀ p start stop, (t.history p start stop).Pairwise fun a b => a.timestamp ≤ b.timestamp
  /-- Those of one instant come in the order in which they were appended. -/
  stable : ∀ p start stop u, (t.history p start stop).filter (fun s => s.timestamp = u) =
    (appended.filter fun s =>
      s.participantId = p && start ≤ s.timestamp && s.timestamp ≤ stop).filter
        fun s => s.timestamp = u
  /-- The latest sample of a participant is the last one of all time. -/
  latestOfParticipant : ∀ p, t.latestOfParticipant p = (t.history p .first .veryLast).getLast?
  /-- There is none just if there are no samples. -/
  latestOfParticipant_eq_none : ∀ p,
    t.latestOfParticipant p = none ↔ t.history p .first .veryLast = []
  /-- The latest sample on the way to an event is the last one of all time that is about it. -/
  latest : ∀ e p, t.latest e p =
    ((t.history p .first .veryLast).filter fun s => s.eventId = e).getLast?
  /-- Whatever is called later, an answer keeps its samples and their order. -/
  grows : ∀ calls p start stop,
    (t.history p start stop).Sublist ((t.after calls).history p start stop)

/-- What belongs to the samples of a participant from an interval, written out. -/
theorem filter_isAsked (samples : List Sample) (p : String) (start stop : Instant) :
    samples.filter (isAsked p start stop) =
      samples.filter fun s => s.participantId = p && start ≤ s.timestamp && s.timestamp ≤ stop :=
  List.filter_congr fun _ _ => (Bool.and_assoc _ _ _).symm

/-- Every history answers for its samples. -/
theorem isAnswering_samples (t : Trail) : t.IsAnswering t.samples where
  perm p start stop := by
    rw [history_eq, ← filter_isAsked]
    exact List.perm_insertionSort _ _
  ascends p start stop := by
    rw [history_eq]
    exact List.pairwise_insertionSort Sample.TakenBy _
  stable p start stop u := by
    rw [history_eq, ← filter_isAsked, filter_insertionSort]
    refine (pairwise_of_timestamp (u := u) fun s hs => ?_).insertionSort_eq
    simpa using (List.mem_filter.mp hs).2
  latestOfParticipant := t.latestOfParticipant_eq
  latestOfParticipant_eq_none p := by
    rw [latestOfParticipant_eq, List.getLast?_eq_none_iff]
  latest e p := by
    rw [history_eq, filter_insertionSort, getLast?_insertionSort, List.filter_filter,
      funext (isAsked_all p)]
    rfl
  grows calls p start stop := by
    refine history_sublist_history ?_ p start stop
    rw [samples_after]
    exact List.sublist_append_left _ _

/-- **After any calls, the history answers for the samples that were appended**, in the order in
which they were.

Once it is known which samples there are, this says nothing about calls any more: every list of
samples is answered for in the same way. -/
theorem isAnswering_after (calls : List Call) :
    (empty.after calls).IsAnswering (calls.filterMap Call.appended?) := by
  have hsamples : (empty.after calls).samples = calls.filterMap Call.appended? :=
    samples_after empty calls
  exact hsamples ▸ isAnswering_samples (empty.after calls)

end Trail

end Gathering
