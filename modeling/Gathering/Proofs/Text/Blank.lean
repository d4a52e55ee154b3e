import Gathering.Text.Blank
import Mathlib.Data.List.DropRight

/-!
# Trimming

What is left of a text without the blank characters at its ends has none at its
ends (`Text.isTrimmed_trim`), so trimming it again changes nothing
(`Text.trim_trim`). Nothing is left of a blank text, and of no other
(`Text.isEmpty_trim`).

A cut takes away a whole run of blank characters, so cutting at one end leaves a
text at whose end there is none. The cut at the other end does not bring one back,
since what is left begins as before, or nothing is left.
-/

namespace Gathering.Text

theorem trimChars_eq (cs : List Char) :
    trimChars cs = (cs.dropWhile isBlankChar).rdropWhile isBlankChar :=
  rfl

theorem toList_trim (s : String) : (trim s).toList = trimChars s.toList :=
  String.toList_ofList

/-- What begins like a list that begins with no blank character does not begin with one. -/
theorem dropWhile_of_isPrefix_dropWhile {cs l : List Char} (h : l <+: cs.dropWhile isBlankChar) :
    l.dropWhile isBlankChar = l := by
  cases l with
  | nil => rfl
  | cons c l =>
    obtain ⟨rest, hrest⟩ := h
    have hc : ¬ isBlankChar c = true := by
      have hhead := List.head?_dropWhile_not isBlankChar cs
      rw [← hrest] at hhead
      simpa using hhead
    exact List.dropWhile_cons_of_neg hc

/-- **Trimming twice is trimming once**, for characters. -/
theorem trimChars_trimChars (cs : List Char) : trimChars (trimChars cs) = trimChars cs := by
  have hprefix : trimChars cs <+: cs.dropWhile isBlankChar := List.rdropWhile_prefix _ _
  rw [trimChars_eq (trimChars cs), dropWhile_of_isPrefix_dropWhile hprefix]
  exact List.rdropWhile_idempotent isBlankChar _

/-- **Trimming twice is trimming once.** -/
theorem trim_trim (s : String) : trim (trim s) = trim s := by
  unfold trim
  rw [String.toList_ofList, trimChars_trimChars]

/-! ## What is left -/

/-- **Nothing is left of a blank text**, and of no other. -/
theorem isEmpty_trim (s : String) : (trim s).isEmpty = isBlank s := by
  have hleft : trimChars s.toList = [] ↔ ∀ c ∈ s.toList, isBlankChar c = true := by
    -- what is left by the first cut is blank only if it is empty
    rw [trimChars_eq, List.rdropWhile_eq_nil_iff,
      ← List.dropWhile_eq_nil_iff (l := s.toList.dropWhile isBlankChar),
      dropWhile_of_isPrefix_dropWhile (List.prefix_refl _), List.dropWhile_eq_nil_iff]
  rw [Bool.eq_iff_iff, String.isEmpty_iff, trim, String.ofList_eq_empty_iff, hleft, isBlank,
    List.all_eq_true]

/-- **A text without blank space around it**: neither its first nor its last character is blank. -/
structure IsTrimmed (s : String) : Prop where
  /-- The first character is not blank. -/
  first : ∀ c ∈ s.toList.head?, isBlankChar c = false
  /-- Nor is the last one. -/
  last : ∀ c ∈ s.toList.getLast?, isBlankChar c = false

/-- What a cut leaves as it is does not begin with a blank character. -/
theorem not_isBlankChar_of_dropWhile_eq {l : List Char} {c : Char}
    (h : l.dropWhile isBlankChar = l) (hc : c ∈ l.head?) : isBlankChar c = false := by
  have hhead := List.head?_dropWhile_not isBlankChar l
  rw [h, hc] at hhead
  exact hhead

/-- **What is left has no blank space around it.** -/
theorem isTrimmed_trim (s : String) : IsTrimmed (trim s) where
  first c hc := by
    have hprefix : (trim s).toList <+: s.toList.dropWhile isBlankChar := by
      rw [toList_trim, trimChars_eq]
      exact List.rdropWhile_prefix _ _
    exact not_isBlankChar_of_dropWhile_eq (dropWhile_of_isPrefix_dropWhile hprefix) hc
  last c hc := by
    rw [toList_trim, trimChars_eq] at hc
    obtain ⟨hne, rfl⟩ := List.mem_getLast?_eq_getLast hc
    exact Bool.eq_false_iff.mpr (List.rdropWhile_last_not isBlankChar _ hne)

end Gathering.Text
