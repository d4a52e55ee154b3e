import Gathering.Cache.Redis
import Mathlib.Data.List.Infix

/-!
# What a pattern of keys matches

A Redis server reads a pattern as a list of parts: a star is any run of characters,
and every other part is one character out of a set – any one for a question mark, the
members of a set in brackets, and else the character itself. A backslash takes the
meaning from the character behind it, inside of brackets as well. Brackets that are
never closed end with the pattern (`parts`). A key matches if it can be cut up so
that each part gets its own piece (`accepts`).

The pattern of the keys that begin with a text matches these keys and no others,
whatever characters the text holds (`fits_beginningWith`). The escaped text leaves
no brackets open: behind an escaped character the reader of the pattern is where it
would be at the start (`parts_literal`). So the text is read as its own characters, one
part for each, and the star behind it takes the rest of the key.

The server knows nothing of characters beyond bytes. Escaping the characters of a text
escapes its bytes, because all bytes of a character beyond ASCII lie above the special
ones (`octets_beginningWith`); and a text whose bytes begin with those of another one begins
with its characters. So the same holds for the bytes that are sent.
-/

namespace Gathering.Cache.Glob

/-! ## The patterns of the server -/

/-- **A set of characters**, as a pattern gives it in brackets. -/
structure CharSet where
  /-- Whether it is all characters but those in the ranges. -/
  negated : Bool
  /-- The ranges, each with both of its ends. -/
  ranges : List (Char × Char)
  deriving DecidableEq, Repr

namespace CharSet

/-- The set of all characters. -/
def all : CharSet := ⟨true, []⟩

/-- The set of one character. -/
def only (c : Char) : CharSet := ⟨false, [(c, c)]⟩

/-- The set with one more range, whose ends may come in any order. -/
def add (s : CharSet) (a b : Char) : CharSet :=
  { s with ranges := s.ranges ++ [if a ≤ b then (a, b) else (b, a)] }

/-- Whether a character is in the set. -/
def has (s : CharSet) (c : Char) : Bool :=
  (s.ranges.any fun r => r.1 ≤ c && c ≤ r.2) != s.negated

end CharSet

/-- **A part of a pattern.** -/
inductive Part where
  /-- Any characters, as many as there are. -/
  | run
  /-- One character out of a set. -/
  | one (s : CharSet)
  deriving DecidableEq, Repr

mutual

/-- **The parts of a pattern.** -/
def parts : List Char → List Part
  | [] => []
  | '*' :: p => .run :: parts p
  | '?' :: p => .one .all :: parts p
  | '[' :: '^' :: p => partsInside ⟨true, []⟩ p
  | '[' :: p => partsInside ⟨false, []⟩ p
  | '\\' :: c :: p => .one (.only c) :: parts p
  | c :: p => .one (.only c) :: parts p

/-- The parts of a pattern from within brackets on, behind the ranges that `s` has already. -/
def partsInside (s : CharSet) : List Char → List Part
  | [] => [.one s]
  | '\\' :: c :: p => partsInside (s.add c c) p
  | ']' :: p => .one s :: parts p
  | a :: '-' :: b :: p => partsInside (s.add a b) p
  | c :: p => partsInside (s.add c c) p

end

/-- **Whether a key consists of pieces for the parts of a pattern**, one after the other. -/
def accepts : List Part → List Char → Bool
  | [], key => key.isEmpty
  | .run :: ps, key => key.tails.any (accepts ps)
  | .one s :: ps, c :: key => s.has c && accepts ps key
  | .one _ :: _, [] => false

/-- Whether a text matches a pattern. -/
def fits (pattern text : List Char) : Bool := accepts (parts pattern) text

/-! ## Escaped characters -/

variable {c k o : Char} {cs key p : List Char}

theorem CharSet.has_only : (only c).has k = true ↔ c = k := by
  show ((c ≤ k && k ≤ c || false) != false) = true ↔ c = k
  rw [Bool.or_false, Bool.bne_false, Bool.and_eq_true, decide_eq_true_iff, decide_eq_true_iff]
  exact ⟨fun h => Char.le_antisymm h.1 h.2, fun h => h ▸ ⟨Char.le_refl c, Char.le_refl c⟩⟩

/-- An escaped character is a part of its own, and what is behind it is read as if it stood at the
start.

All characters that mean something at the start are escaped. Those that mean something in brackets
only are escaped as well, though no brackets are ever open. -/
theorem parts_literal (c : Char) (p : List Char) :
    parts (literal c ++ p) = .one (.only c) :: parts p := by
  unfold literal
  split
  next => rfl
  next h =>
    -- none of the cases of the reader is about `c`
    simp only [isSpecial, Bool.or_eq_true, beq_iff_eq, not_or] at h
    show parts (c :: p) = _
    rw [parts] <;> grind

theorem parts_escaped (cs p : List Char) :
    parts (cs.flatMap literal ++ p) = cs.map (fun c => .one (.only c)) ++ parts p := by
  induction cs with
  | nil => rfl
  | cons c cs ih => rw [List.flatMap_cons, List.append_assoc, parts_literal, ih]; rfl

/-- A star takes whatever is left. -/
theorem accepts_run (key : List Char) : accepts [.run] key = true :=
  List.any_eq_true.mpr ⟨[], (List.mem_tails [] key).mpr List.nil_suffix, rfl⟩

/-- **An escaped text with a star behind it matches the texts that begin with it.** -/
theorem fits_escaped (cs key : List Char) :
    fits (cs.flatMap literal ++ ['*']) key = true ↔ cs <+: key := by
  show accepts (parts (cs.flatMap literal ++ ['*'])) key = true ↔ _
  rw [parts_escaped]
  show accepts (_ ++ [.run]) key = true ↔ _
  induction cs generalizing key with
  | nil => exact iff_of_true (accepts_run key) List.nil_prefix
  | cons c cs ih =>
    cases key with
    | nil => exact iff_of_false Bool.false_ne_true (fun h => nomatch List.prefix_nil.mp h)
    | cons k key =>
      show ((CharSet.only c).has k &&
        accepts (cs.map (fun c => Part.one (.only c)) ++ [.run]) key) = true ↔ _
      rw [Bool.and_eq_true, CharSet.has_only, ih, List.cons_prefix_cons]

/-! ## Bytes -/

/-- A byte string as the server reads it, one character for each byte. -/
def octets (bytes : ByteArray) : List Char := bytes.data.toList.map Char.ofUInt8

/-- The bytes of a character. -/
def octetsOf (c : Char) : List Char := (String.utf8EncodeChar c).map Char.ofUInt8

theorem octets_word (s : String) : octets (Redis.word s) = s.toList.flatMap octetsOf := by
  have hbytes : Redis.word s = s.toList.utf8Encode := String.utf8Encode_toList.symm
  rw [hbytes]
  show ((s.toList.flatMap String.utf8EncodeChar).toByteArray).data.toList.map Char.ofUInt8 = _
  rw [List.toList_data_toByteArray, List.map_flatMap]
  rfl

/-- Characters beyond ASCII stand for themselves. -/
theorem literal_of_le (h : 128 ≤ c.val.toNat) : literal c = [c] := by
  refine if_neg fun hspecial => ?_
  simp only [isSpecial, Bool.or_eq_true, beq_iff_eq] at hspecial
  obtain (((((rfl | rfl) | rfl) | rfl) | rfl) | rfl) | rfl := hspecial <;>
    exact absurd h (by decide)

theorem octetsOf_of_lt (h : c.val.toNat < 128) : octetsOf c = [c] := by
  have hsmall : c.val.toNat < UInt8.size := Nat.lt_trans h (by decide)
  have hbyte : (UInt8.ofNat c.val.toNat).toNat = c.val.toNat := UInt8.toNat_ofNat_of_lt hsmall
  unfold octetsOf String.utf8EncodeChar
  rw [if_pos (Nat.le_of_lt_succ h)]
  refine congrArg (· :: []) (Char.ext (UInt32.toNat_inj.mp ?_))
  exact (UInt8.toNat_toUInt32 _).trans hbyte

/-- All bytes of another character are beyond ASCII: their leading bits hold no part of it. -/
theorem le_of_mem_octetsOf (h : 128 ≤ c.val.toNat) (ho : o ∈ octetsOf c) : 128 ≤ o.val.toNat := by
  have hbytes : ∀ b ∈ String.utf8EncodeChar c, 128 ≤ b.toNat := by
    unfold String.utf8EncodeChar
    rw [if_neg (Nat.not_le_of_lt h)]
    split_ifs <;>
      simp [UInt8.toNat_ofNat'] <;> omega
  obtain ⟨b, hb, rfl⟩ := List.mem_map.mp ho
  show 128 ≤ b.toUInt32.toNat
  rw [UInt8.toNat_toUInt32]
  exact hbytes b hb

/-- **The bytes of a character are escaped if it is**: beyond ASCII they are all too large to be
special. -/
theorem flatMap_literal_octetsOf (c : Char) :
    (octetsOf c).flatMap literal = (literal c).flatMap octetsOf := by
  by_cases h : c.val.toNat < 128
  case pos =>
    rw [octetsOf_of_lt h]
    show literal c ++ [] = _
    unfold literal
    split
    next =>
      show _ = octetsOf '\\' ++ (octetsOf c ++ [])
      rw [octetsOf_of_lt h]
      rfl
    next =>
      show _ = octetsOf c ++ []
      rw [octetsOf_of_lt h]
  case neg =>
    have hle : 128 ≤ c.val.toNat := Nat.le_of_not_lt h
    have hself : (octetsOf c).flatMap literal = (octetsOf c).flatMap fun o => [o] :=
      List.flatMap_congr fun o ho => literal_of_le (le_of_mem_octetsOf hle ho)
    rw [hself, literal_of_le hle, List.flatMap_singleton']
    exact (List.append_nil _).symm

/-- **Escaping the characters of a text escapes its bytes.** -/
theorem octets_beginningWith (start : String) :
    octets (Redis.word (beginningWith start)) =
      (octets (Redis.word start)).flatMap literal ++ ['*'] := by
  have hchars : (beginningWith start).toList = start.toList.flatMap literal ++ ['*'] :=
    String.toList_ofList
  rw [octets_word, octets_word, hchars, List.flatMap_append, List.flatMap_assoc, List.flatMap_assoc]
  simp only [flatMap_literal_octetsOf]
  rfl

/-- A text whose bytes begin with those of another one begins with its characters. -/
theorem octets_prefix_iff (start key : String) :
    octets (Redis.word start) <+: octets (Redis.word key) ↔ start.toList <+: key.toList := by
  constructor
  · intro h
    have hinj : Function.Injective Char.ofUInt8 := fun a b hab =>
      UInt8.toUInt32_inj.mp (congrArg Char.val hab)
    obtain ⟨rest, hrest⟩ := (List.prefix_map_iff_of_injective hinj).mp h
    refine List.isPrefix_of_utf8Encode_append_eq_utf8Encode rest.toByteArray ?_
    rw [String.utf8Encode_toList, String.utf8Encode_toList]
    refine ByteArray.ext (Array.toList_inj.mp ?_)
    rw [ByteArray.data_append, Array.toList_append, List.toList_data_toByteArray]
    exact hrest
  · rintro ⟨rest, hrest⟩
    rw [octets_word, octets_word, ← hrest, List.flatMap_append]
    exact List.prefix_append _ _

/-- **The pattern of the keys that begin with a text matches just these keys**, character by
character and byte by byte.

For bytes the text is again an escaped one, namely the bytes of the text, so that the same lemma
serves both. -/
theorem fits_beginningWith (start key : String) :
    (fits (beginningWith start).toList key.toList = true ↔ start.toList <+: key.toList) ∧
      (fits (octets (Redis.word (beginningWith start))) (octets (Redis.word key)) = true ↔
        start.toList <+: key.toList) := by
  have hchars : (beginningWith start).toList = start.toList.flatMap literal ++ ['*'] :=
    String.toList_ofList
  rw [hchars, octets_beginningWith, fits_escaped, fits_escaped]
  exact ⟨Iff.rfl, octets_prefix_iff start key⟩

-- the star of the text stands for itself, and the one behind it for any run
example : fits (beginningWith "a*").toList "a*b".toList = true ∧
    fits (beginningWith "a*").toList "ab".toList = false := by
  decide +kernel

-- other patterns: a set that is negated, and one whose range is turned round and never closed
example : fits "h?l[^x-z]o*\\*".toList "hello, world*".toList = true ∧
    fits "[c-a]\\?[".toList "b?".toList = false := by
  decide +kernel

end Gathering.Cache.Glob
