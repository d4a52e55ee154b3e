import Gathering.Json.Reading
import Gathering.Json.Writing

/-!
# Reading back strings

A text between quotes is read as one piece for each of its characters
(`pieces?_quoted`), and these pieces stand for the text (`textOf?_piecesOf`).
Whatever the text holds, quotes and control characters included, it comes back.
-/

namespace Gathering.Json

/-- How a character of a written string is read: as itself, or as a code unit if it is a control
character without a letter of its own. -/
def Piece.of (c : Char) : Piece :=
  if (escapeChar c).length = 6 then .unit c.toNat else .plain (some c)

/-- A text as it is read. -/
def piecesOf (s : String) : List Piece := s.toList.map Piece.of

/-- What was read of a string, with a piece in front. -/
def before (p : Piece) (r : Option (List Piece × Glyphs)) : Option (List Piece × Glyphs) :=
  r.map fun (rest, gs) => (p :: rest, gs)

/-! ## Single characters

There are three ways to write a character: as itself, as a letter behind a backslash, or, if it is
a control character without such a letter, as a code unit of four digits. -/

theorem pieces?_plain {c : Char} (hquote : c ≠ '"') (hslash : c ≠ '\\') (h : ¬ c.toNat < 0x20)
    (gs : Glyphs) : pieces? (some c :: gs) = before (.plain (some c)) (pieces? gs) := by
  rw [pieces?.eq_def]
  split
  case h_1 heq => cases heq
  case h_2 heq =>
    cases heq
    exact absurd rfl hquote
  case h_3 heq =>
    cases heq
    exact absurd rfl hslash
  case h_4 heq =>
    cases heq
    exact absurd rfl hslash
  case h_5 heq =>
    cases heq
    have hplain : isPlain (some c) = true := decide_eq_true (Nat.not_lt.mp h)
    rw [if_pos ⟨hplain, fun h => hslash (Option.some.inj h)⟩]
    cases pieces? gs <;> rfl

/-- A character behind a backslash. -/
theorem pieces?_letter {letter c : Char} (h : escaped? (some letter) = some c) (gs : Glyphs) :
    pieces? (some '\\' :: some letter :: gs) = before (.plain (some c)) (pieces? gs) := by
  rw [pieces?.eq_def]
  split
  case h_1 heq => cases heq
  case h_2 heq => cases heq
  case h_3 heq =>
    cases heq
    cases h
  case h_4 heq =>
    cases heq
    rw [h]
    cases pieces? gs <;> rfl
  case h_5 _ hne heq =>
    cases heq
    exact (hne _ _ rfl rfl).elim

/-- The digits of a control character are read as its number. -/
theorem codeUnit?_hexDigit :
    ∀ n < 0x20, codeUnit? (some '0') (some '0') (some (hexDigit (n / 16)))
      (some (hexDigit (n % 16))) = some n := by
  decide

theorem pieces?_unit {n : Nat} (h : n < 0x20) (gs : Glyphs) :
    pieces? (some '\\' :: some 'u' :: some '0' :: some '0' :: some (hexDigit (n / 16)) ::
      some (hexDigit (n % 16)) :: gs) = before (.unit n) (pieces? gs) := by
  rw [pieces?.eq_def]
  simp only [codeUnit?_hexDigit n h]
  cases pieces? gs <;> rfl

/-- **How a character is written.** -/
inductive Escapes (c : Char) : List Char → Prop
  /-- As a letter that stands for it, behind a backslash. -/
  | letter (letter : Char) (h : escaped? (some letter) = some c) : Escapes c ['\\', letter]
  /-- As a code unit, if it is a control character. -/
  | unit (h : c.toNat < 0x20) :
    Escapes c ['\\', 'u', '0', '0', hexDigit (c.toNat / 16), hexDigit (c.toNat % 16)]
  /-- As itself. -/
  | plain (hquote : c ≠ '"') (hslash : c ≠ '\\') (h : ¬ c.toNat < 0x20) : Escapes c [c]

theorem escapes_escapeChar (c : Char) : Escapes c (escapeChar c) := by
  unfold escapeChar
  by_cases hletter : c ∈ ['"', '\\', '\x08', '\x0c', '\n', '\r', '\t']
  · simp only [List.mem_cons, List.not_mem_nil, or_false] at hletter
    rcases hletter with rfl | rfl | rfl | rfl | rfl | rfl | rfl <;> exact .letter _ rfl
  · simp only [List.mem_cons, List.not_mem_nil, or_false, not_or] at hletter
    obtain ⟨hquote, hslash, hback, hfeed, hline, hreturn, htab⟩ := hletter
    rw [if_neg hquote, if_neg hslash, if_neg hback, if_neg hfeed, if_neg hline, if_neg hreturn,
      if_neg htab]
    split
    case isTrue h => exact .unit h
    case isFalse h => exact .plain hquote hslash h

/-- **A written character is read as its piece.** -/
theorem pieces?_escapeChar (c : Char) (gs : Glyphs) :
    pieces? ((escapeChar c).map some ++ gs) = before (.of c) (pieces? gs) := by
  have hescapes := escapes_escapeChar c
  unfold Piece.of
  generalize escapeChar c = cs at hescapes
  cases hescapes with
  | letter _ h => exact pieces?_letter h gs
  | unit h => exact pieces?_unit h gs
  | plain hquote hslash h => exact pieces?_plain hquote hslash h gs

/-! ## Whole strings -/

/-- **A string is read up to its closing quote**, one piece for each character of the text. -/
theorem pieces?_quoted (cs : List Char) (gs : Glyphs) :
    pieces? ((cs.flatMap escapeChar).map some ++ some '"' :: gs) = some (cs.map Piece.of, gs) := by
  induction cs with
  | nil =>
    rw [pieces?.eq_def]
    rfl
  | cons c cs ih =>
    rw [List.flatMap_cons, List.map_append, List.append_assoc, pieces?_escapeChar, ih]
    rfl

theorem not_half_of_lt {n : Nat} (h : n < 0x20) : isLeading n = false ∧ isTrailing n = false :=
  ⟨Bool.and_eq_false_imp.mpr fun hle => absurd (of_decide_eq_true hle) (by omega),
    Bool.and_eq_false_imp.mpr fun hle => absurd (of_decide_eq_true hle) (by omega)⟩

/-- A character is read as a code unit only if it is a control character. -/
theorem lt_of_length_escapeChar {c : Char} (h : (escapeChar c).length = 6) : c.toNat < 0x20 := by
  have hescapes := escapes_escapeChar c
  generalize escapeChar c = cs at h hescapes
  cases hescapes with
  | letter => cases h
  | unit hlt => exact hlt
  | plain => cases h

/-- The piece of a character stands for the character. -/
theorem characters?_of (c : Char) (rest : List Piece) :
    characters? (.of c :: rest) = (characters? rest).map (c :: ·) := by
  unfold Piece.of
  split
  case isFalse => rw [characters?]
  case isTrue h =>
    obtain ⟨hleading, htrailing⟩ := not_half_of_lt (lt_of_length_escapeChar h)
    cases rest with
    | nil => simp [characters?, hleading, htrailing]
    | cons p rest =>
      cases p with
      | plain => simp [characters?, hleading, htrailing]
      | unit => simp [characters?, hleading, htrailing]

theorem characters?_map_of (cs : List Char) : characters? (cs.map Piece.of) = some cs := by
  induction cs with
  | nil => rfl
  | cons c cs ih =>
    rw [List.map_cons, characters?_of, ih]
    rfl

/-- **The pieces of a text stand for the text.** -/
theorem textOf?_piecesOf (s : String) : textOf? (piecesOf s) = some s := by
  unfold textOf? piecesOf
  rw [characters?_map_of]
  exact congrArg some s.ofList_toList

end Gathering.Json
