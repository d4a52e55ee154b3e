import Mathlib.Data.List.Sort

/-!
# Sorts that keep the order of equals

A sort that keeps the order of equals can be thought of as putting the elements in
one by one, the last one first, each before its equals. So it can be looked at from
both ends. The first of the sorted list belongs strictly before all that came earlier
(`exists_split_of_insertionSort`), the last one strictly after all that came later
(`insertionSort_append_cons`). Sorting and selecting may be swapped
(`filter_insertionSort`), and to sort more is to put something in
(`sublist_insertionSort_of_sublist`).

Whatever way a sort takes, it gives the same list if it keeps the order of equals
(`mergeSort_eq_insertionSort`).
-/

namespace Gathering

open List

variable {α : Type} {r : α → α → Prop} [DecidableRel r] {before after l : List α} {x : α}

theorem orderedInsert_concat {a : α} (h : r a x) :
    orderedInsert r a (l ++ [x]) = orderedInsert r a l ++ [x] := by
  induction l with
  | nil => simp [h]
  | cons b l ih =>
    rw [List.cons_append, orderedInsert_cons, orderedInsert_cons, ih]
    split <;> rfl

theorem orderedInsert_of_forall_not (h : ∀ b ∈ l, ¬ r x b) : orderedInsert r x l = l ++ [x] := by
  induction l with
  | nil => rfl
  | cons b l ih =>
    obtain ⟨hb, hl⟩ := forall_mem_cons.mp h
    rw [orderedInsert_cons, if_neg hb, ih hl, List.cons_append]

/-- **What belongs after everything before it, and strictly after everything behind it, is the last
of the sorted list.** -/
theorem insertionSort_append_cons (hbefore : ∀ a ∈ before, r a x) (hafter : ∀ b ∈ after, ¬ r x b) :
    (before ++ x :: after).insertionSort r = (before ++ after).insertionSort r ++ [x] := by
  induction before with
  | nil =>
    exact orderedInsert_of_forall_not fun b hb => hafter b ((mem_insertionSort r).mp hb)
  | cons a before ih =>
    obtain ⟨ha, hbefore⟩ := forall_mem_cons.mp hbefore
    rw [List.cons_append, List.cons_append, insertionSort_cons, insertionSort_cons, ih hbefore,
      orderedInsert_concat ha]

theorem orderedInsert_of_forall {a : α} (h : ∀ b ∈ l, r a b) : orderedInsert r a l = a :: l := by
  cases l with
  | nil => rfl
  | cons b l => exact orderedInsert_cons_of_le r l (h b mem_cons_self)

/-- What belongs strictly after one part of a sorted list, and before the other one, is put in
between them. -/
theorem orderedInsert_append {a : α} {l₁ l₂ : List α} (hfirst : ∀ b ∈ l₁, ¬ r a b)
    (hsecond : ∀ b ∈ l₂, r a b) : orderedInsert r a (l₁ ++ l₂) = l₁ ++ a :: l₂ := by
  induction l₁ with
  | nil => exact orderedInsert_of_forall hsecond
  | cons b l₁ ih =>
    obtain ⟨hb, hfirst⟩ := forall_mem_cons.mp hfirst
    rw [cons_append, orderedInsert_cons, if_neg hb, ih hfirst, cons_append]

variable [IsTrans α r] {p : α → Bool}

/-- What is put in is among those of a kind, if it is of the kind. -/
theorem filter_orderedInsert {a : α} (h : l.Pairwise r) :
    (orderedInsert r a l).filter p =
      if p a then orderedInsert r a (l.filter p) else l.filter p := by
  induction l with
  | nil => cases hp : p a <;> simp [hp]
  | cons b l ih =>
    obtain ⟨hb, hl⟩ := pairwise_cons.mp h
    rw [orderedInsert_cons]
    split
    · next hab =>
      have hall : ∀ c ∈ (b :: l).filter p, r a c := by
        intro c hc
        rcases mem_cons.mp (mem_filter.mp hc).1 with rfl | hc
        · exact hab
        · exact IsTrans.trans _ _ _ hab (hb c hc)
      rw [filter_cons, orderedInsert_of_forall hall]
    · next hab =>
      rw [filter_cons, filter_cons, ih hl]
      cases p b with
      | false => rfl
      | true => cases p a <;> simp [hab]

variable [Std.Total r]

/-- **Sorting keeps those of a kind in the order in which they are sorted by themselves.** -/
theorem filter_insertionSort : (l.insertionSort r).filter p = (l.filter p).insertionSort r := by
  induction l with
  | nil => rfl
  | cons a l ih =>
    rw [insertionSort_cons, filter_orderedInsert (pairwise_insertionSort r l), ih, filter_cons]
    cases p a <;> rfl

/-- **The first of a sorted list** belongs strictly before all that came earlier in the list, and
before all that came later.

By induction on the list. Its first element is put in last: either it goes in front of the sorted
rest, and then it was not after anything in the rest, or the first of the rest stays first, and
then it belongs strictly before the new element. -/
theorem exists_split_of_insertionSort {rest : List α} (h : l.insertionSort r = x :: rest) :
    ∃ before after, l = before ++ x :: after ∧ (∀ a ∈ before, ¬ r a x) ∧ ∀ b ∈ after, r x b := by
  induction l generalizing x rest with
  | nil => cases h
  | cons a l ih =>
    rw [insertionSort_cons] at h
    cases hsorted : l.insertionSort r with
    | nil =>
      rw [hsorted] at h
      cases h
      have hnil : l = [] := by
        rw [← length_eq_zero_iff, ← length_insertionSort r, hsorted]
        rfl
      exact ⟨[], [], by rw [hnil]; rfl, (fun _ h => by cases h), fun _ h => by cases h⟩
    | cons y ys =>
      obtain ⟨before, after, rfl, hbefore, hafter⟩ := ih hsorted
      rw [hsorted, orderedInsert_cons] at h
      split at h
      · next hay =>
        cases h
        refine ⟨[], _, rfl, (fun _ h => by cases h), fun b hb => ?_⟩
        rcases mem_append.mp hb with hb | hb
        · exact IsTrans.trans _ _ _ hay ((total_of r b y).resolve_left (hbefore b hb))
        · rcases mem_cons.mp hb with rfl | hb
          · exact hay
          · exact IsTrans.trans _ _ _ hay (hafter b hb)
      · next hay =>
        -- `x` stays first, so the new element is one of those that came before it
        cases h
        exact ⟨a :: before, after, rfl, forall_mem_cons.mpr ⟨hay, hbefore⟩, hafter⟩

/-- **To sort more elements is to put more in.** What was sorted before is still there, in its
order. -/
theorem sublist_insertionSort_of_sublist {l l' : List α} (h : l <+ l') :
    l.insertionSort r <+ l'.insertionSort r := by
  induction h with
  | slnil => exact Sublist.refl _
  | @cons l l' a _ ih => exact ih.trans (sublist_orderedInsert a (l'.insertionSort r))
  | @cons_cons l l' a _ ih => exact ih.orderedInsert_sublist a (pairwise_insertionSort r l')

/-- **Sorting by halves is sorting by putting in**, also where different elements are equal in the
order, because both keep the order of equals. -/
theorem mergeSort_eq_insertionSort (l : List α) :
    l.mergeSort (fun a b => r a b) = l.insertionSort r := by
  have htrans : ∀ a b c : α, decide (r a b) → decide (r b c) → decide (r a c) := by
    simpa using fun a b c => IsTrans.trans (r := r) a b c
  have htotal : ∀ a b : α, decide (r a b) || decide (r b a) := by
    simpa using total_of r
  induction l with
  | nil => exact mergeSort_nil
  | cons a l ih =>
    obtain ⟨l₁, l₂, hcons, htail, hfirst⟩ := mergeSort_cons htrans htotal a l
    have hsorted := pairwise_mergeSort htrans htotal (a :: l)
    rw [hcons] at hsorted
    obtain ⟨-, hsecond, -⟩ := pairwise_append.mp hsorted
    rw [insertionSort_cons, ← ih, hcons, htail]
    refine (orderedInsert_append (fun b hb => ?_) fun b hb => ?_).symm
    · simpa using hfirst b hb
    · simpa using (pairwise_cons.mp hsecond).1 b hb

end Gathering
