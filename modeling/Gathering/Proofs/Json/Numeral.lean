import Gathering.Json.Tree
import Gathering.Proofs.Decimal.Digits

/-!
# Reading back numbers

A numeral is its sign, its digits, a fraction and an exponent, and reading takes
as much of them as it can. A **sound** numeral is therefore read back from its
characters if what comes behind does not go on with a number
(`numeral?_append`).

Every number is written as a sound numeral: an integer as its digits
(`Numeral.isSound_ofInt`), and the record form of a decimal as digits with a
point, an exponent or both (`exists_numeral_recordForm`).
-/

namespace Gathering.Json

open Gathering.Decimal (IsRun IsNumber)

namespace Numeral

/-- A numeral with the parts that the grammar wants. -/
structure IsSound (n : Numeral) : Prop where
  /-- The digits before the point. -/
  whole : IsNumber n.whole
  /-- The digits behind the point. -/
  fraction : ∀ ds, n.fraction = some ds → IsRun ds
  /-- The digits of the exponent. -/
  exponent : ∀ e, n.exponent = some e → IsRun e.2

/-- The sign of a numeral as it is written. -/
def signChars (n : Numeral) : List Char :=
  if n.negative then ['-'] else []

/-- The fraction as it is written. -/
def fractionChars : Option (List Char) → List Char
  | none => []
  | some ds => '.' :: ds

/-- The exponent as it is written. -/
def exponentChars : Option (Bool × List Char) → List Char
  | none => []
  | some (negative, ds) => 'e' :: (if negative then '-' else '+') :: ds

/-- **A numeral as it is written.** -/
def chars (n : Numeral) : List Char :=
  n.signChars ++ (n.whole ++ (fractionChars n.fraction ++ exponentChars n.exponent))

/-- The numeral of an integer. -/
def ofInt (n : Int) : Numeral := ⟨n < 0, Nat.toDigits 10 n.natAbs, none, none⟩

theorem isSound_ofInt (n : Int) : (ofInt n).IsSound where
  whole := Decimal.isNumber_toDigits n.natAbs
  fraction _ h := by cases h
  exponent _ h := by cases h

end Numeral

/-! ## Where a number ends

A number is read as far as it goes. So for reading it back it has to be known that what comes
behind it is no digit, no point and no letter of an exponent. In a text that was written, a number
is followed by a comma or a bracket, or by nothing. -/

/-- Characters that do not go on with a run of digits. -/
def NoDigit (gs : Glyphs) : Prop := ∀ g, gs.head? = some g → digit? g = none

/-- Characters that do not go on with a number: neither with a digit, nor with a fraction or an
exponent. -/
def NoNumber (gs : Glyphs) : Prop :=
  ∀ g, gs.head? = some g → digit? g = none ∧ g ≠ some '.' ∧ g ≠ some 'e' ∧ g ≠ some 'E'

variable {ds : List Char} {gs : Glyphs}

theorem NoNumber.noDigit (h : NoNumber gs) : NoDigit gs := fun g hg => (h g hg).1

theorem noNumber_nil : NoNumber [] := fun _ h => by cases h

/-- What ends a value in an array or an object ends a number. -/
theorem noNumber_cons {c : Char} (h : c = ',' ∨ c = ']' ∨ c = '}') (gs : Glyphs) :
    NoNumber (some c :: gs) := by
  intro g hg
  cases hg
  rcases h with rfl | rfl | rfl <;> decide

/-- A character that is no digit ends a run of digits. -/
theorem noDigit_cons {c : Char} (h : c.isDigit = false) (gs : Glyphs) : NoDigit (some c :: gs) := by
  intro g hg
  cases hg
  unfold digit?
  rw [Option.filter_some, h]
  rfl

/-! ## The parts of a number -/

theorem digit?_eq_some {c : Char} (h : c.isDigit = true) : digit? (some c) = some c := by
  unfold digit?
  rw [Option.filter_some, if_pos h]

/-- **A run of digits is split off.** -/
theorem splitDigits_append (h : ∀ c ∈ ds, c.isDigit = true) (hgs : NoDigit gs) :
    splitDigits (ds.map some ++ gs) = (ds, gs) := by
  have hdigits : ∀ g ∈ ds.map some, (digit? g).isSome = true := by
    intro g hg
    obtain ⟨c, hc, rfl⟩ := List.mem_map.mp hg
    rw [digit?_eq_some (h c hc)]
    rfl
  have hrest : gs.takeWhile (fun g => (digit? g).isSome) = [] ∧
      gs.dropWhile (fun g => (digit? g).isSome) = gs := by
    cases gs with
    | nil => exact ⟨rfl, rfl⟩
    | cons g gs =>
      have hg := hgs g rfl
      simp [hg]
  unfold splitDigits
  rw [List.takeWhile_append_of_pos hdigits, List.dropWhile_append_of_pos hdigits, hrest.1, hrest.2,
    List.append_nil, List.filterMap_map]
  exact congrArg (·, gs) List.filterMap_some

/-- The digits before the point are all taken, unless the first one is a zero: then it has to
stand alone. -/
theorem whole?_append (h : IsNumber ds) (hgs : NoDigit gs) :
    whole? (ds.map some ++ gs) = some (ds, gs) := by
  unfold whole?
  rw [splitDigits_append h.isDigit hgs]
  match ds, h with
  | [], h => exact absurd rfl h.ne_nil
  | ['0'], _ => rfl
  | '0' :: d :: ds, h => exact absurd rfl (h.head?_ne (by simp))
  | d :: ds, h =>
    by_cases hd : d = '0'
    · subst hd
      cases ds with
      | nil => rfl
      | cons => exact absurd rfl (h.head?_ne (by simp))
    · simp [hd]

/-- A fraction is read back if no digit follows. Where there is none, what follows must not look
like one, and so must not begin with a point. -/
theorem fraction?_append {f : Option (List Char)} (h : ∀ ds, f = some ds → IsRun ds)
    (hgs : NoDigit gs) (hpoint : f = none → gs.head? ≠ some (some '.')) :
    fraction? ((Numeral.fractionChars f).map some ++ gs) = some (f, gs) := by
  cases f with
  | none =>
    show fraction? gs = _
    unfold fraction?
    split
    · exact absurd rfl (hpoint rfl)
    · rfl
  | some ds =>
    have hrun := h ds rfl
    show fraction? (some '.' :: (ds.map some ++ gs)) = _
    unfold fraction?
    simp only [splitDigits_append hrun.isDigit hgs]
    rw [if_neg (by simpa using hrun.ne_nil)]

theorem exponent?_append {e : Option (Bool × List Char)} (h : ∀ x, e = some x → IsRun x.2)
    (hgs : NoNumber gs) :
    exponent? ((Numeral.exponentChars e).map some ++ gs) = some (e, gs) := by
  cases e with
  | none =>
    show exponent? gs = _
    unfold exponent?
    split
    · exact absurd rfl (hgs _ rfl).2.2.1
    · exact absurd rfl (hgs _ rfl).2.2.2
    · rfl
  | some x =>
    obtain ⟨negative, ds⟩ := x
    have hrun : IsRun ds := h _ rfl
    cases negative with
    | true =>
      show (signedDigits? (some '-' :: (ds.map some ++ gs))).map _ = _
      unfold signedDigits?
      simp only [splitDigits_append hrun.isDigit hgs.noDigit]
      rw [if_neg (by simpa using hrun.ne_nil)]
      rfl
    | false =>
      show (signedDigits? (some '+' :: (ds.map some ++ gs))).map _ = _
      unfold signedDigits?
      simp only [splitDigits_append hrun.isDigit hgs.noDigit]
      rw [if_neg (by simpa using hrun.ne_nil)]
      rfl

/-! ## Numbers -/

/-- A written exponent does not go on with digits or a point. -/
theorem noDigit_exponentChars (e : Option (Bool × List Char)) (hgs : NoNumber gs) :
    NoDigit ((Numeral.exponentChars e).map some ++ gs) ∧
      ((Numeral.exponentChars e).map some ++ gs).head? ≠ some (some '.') := by
  cases e with
  | none => exact ⟨hgs.noDigit, fun h => (hgs _ h).2.1 rfl⟩
  | some => exact ⟨noDigit_cons rfl _, by simp [Numeral.exponentChars]⟩

theorem noDigit_fractionChars {f : Option (List Char)} (hgs : NoDigit gs) :
    NoDigit ((Numeral.fractionChars f).map some ++ gs) := by
  cases f with
  | none => exact hgs
  | some => exact noDigit_cons rfl _

/-- The parts of a numeral are read one after the other, each up to where the next one begins: a
fraction begins with a point and an exponent with a letter, so that neither goes on with a
digit. -/
theorem unsigned?_append {n : Numeral} (h : n.IsSound) (hgs : NoNumber gs) :
    unsigned? n.negative ((n.whole ++ (Numeral.fractionChars n.fraction ++
      Numeral.exponentChars n.exponent)).map some ++ gs) = some (n, gs) := by
  obtain ⟨hexponent, hpoint⟩ := noDigit_exponentChars n.exponent hgs
  unfold unsigned?
  rw [List.map_append, List.map_append, List.append_assoc, List.append_assoc,
    whole?_append h.whole (noDigit_fractionChars hexponent)]
  simp only [Option.bind_eq_bind, Option.bind_some]
  rw [fraction?_append h.fraction hexponent fun _ => hpoint]
  simp only [Option.bind_some]
  rw [exponent?_append h.exponent hgs]
  rfl

/-- **A sound numeral is read back.** -/
theorem numeral?_append {n : Numeral} (h : n.IsSound) (hgs : NoNumber gs) :
    numeral? (n.chars.map some ++ gs) = some (n, gs) := by
  have hread := unsigned?_append h hgs
  unfold Numeral.chars Numeral.signChars
  cases hsign : n.negative with
  | true =>
    rw [hsign] at hread
    exact hread
  | false =>
    rw [hsign] at hread
    obtain ⟨d, ds, hds⟩ := List.exists_cons_of_ne_nil h.whole.ne_nil
    have hminus : d ≠ '-' := by
      rintro rfl
      have := h.whole.isDigit '-' (hds ▸ List.mem_cons_self)
      exact absurd this (by decide)
    rw [hds] at hread ⊢
    show numeral? (some d :: _) = _
    unfold numeral?
    split
    · next heq => exact absurd (Option.some.inj (List.head_eq_of_cons_eq heq)) hminus
    · exact hread

/-! ## Decimals

A decimal has a record form in four ways: as zero, as a whole number, with a point, and with an
exponent. Each of them is a numeral, and the digits come back whichever way it was. -/

namespace Numeral

theorem chars_mk (negative : Bool) (whole : List Char) (f : Option (List Char))
    (e : Option (Bool × List Char)) :
    (mk negative whole f e).chars =
      (Decimal.signText negative).toList ++ (whole ++ (fractionChars f ++ exponentChars e)) := by
  cases negative <;> rfl

theorem isSound_fraction {whole f : List Char} (negative : Bool) (h : IsNumber whole)
    (h' : IsRun f) : IsSound ⟨negative, whole, some f, none⟩ where
  whole := h
  fraction ds hds := Option.some.inj hds ▸ h'
  exponent _ h := by cases h

theorem isSound_exponent {whole es : List Char} {f : Option (List Char)} (negative below : Bool)
    (h : IsNumber whole) (h' : ∀ ds, f = some ds → IsRun ds) (h'' : IsRun es) :
    IsSound ⟨negative, whole, f, some (below, es)⟩ where
  whole := h
  fraction := h'
  exponent _ he := Option.some.inj he ▸ h''

end Numeral

theorem isRun_zero : IsRun ['0'] :=
  ⟨List.cons_ne_nil _ _, List.forall_mem_singleton.mpr rfl⟩

theorem isNumber_take {n : Nat} (h : n ≠ 0) : IsNumber ((Nat.toDigits 10 n).take 1) := by
  have hrun := Decimal.isRun_toDigits n
  have hhead := Decimal.head?_toDigits h
  obtain ⟨d, ds, hds⟩ := List.exists_cons_of_ne_nil hrun.ne_nil
  rw [hds] at hrun hhead ⊢
  exact { ne_nil := List.cons_ne_nil d [], head?_ne := fun _ => hhead
          isDigit := fun c hc => hrun.isDigit c (List.mem_of_mem_take hc) }

/-- The mantissa of a decimal with an exponent: its first digit, and the others behind a point. -/
theorem exists_mantissa {n : Nat} (h : n ≠ 0) :
    ∃ whole f, IsNumber whole ∧ (∀ ds, f = some ds → IsRun ds) ∧
      (let lead := String.ofList ((Decimal.digitText n).toList.take 1)
       let rest := String.ofList ((Decimal.digitText n).toList.drop 1)
       if rest.isEmpty then lead else lead ++ "." ++ rest).toList =
        whole ++ Numeral.fractionChars f := by
  simp only [Decimal.toList_digitText]
  split
  case isTrue =>
    exact ⟨_, none, isNumber_take h, fun _ h => (by cases h), by simp [Numeral.fractionChars]⟩
  case isFalse hrest =>
    refine ⟨_, some ((Nat.toDigits 10 n).drop 1), isNumber_take h, fun ds hds => ?_,
      by simp [Numeral.fractionChars]⟩
    cases hds
    exact { ne_nil := fun hnil => hrest (by rw [hnil]; rfl)
            isDigit := fun c hc => (Decimal.isRun_toDigits n).isDigit c (List.mem_of_mem_drop hc) }

/-- **The record form of a decimal is a sound numeral.** -/
theorem exists_numeral_recordForm (negative : Bool) (d : Decimal) :
    ∃ n : Numeral, n.IsSound ∧
      n.chars = (Decimal.signText negative ++ Decimal.recordForm d).toList := by
  unfold Decimal.recordForm
  simp only
  split
  case isTrue => -- zero
    refine ⟨⟨negative, ['0'], some ['0'], none⟩,
      Numeral.isSound_fraction negative (Decimal.isNumber_toDigits 0) isRun_zero, ?_⟩
    rw [Numeral.chars_mk, String.toList_append]
    rfl
  case isFalse hdigits =>
    split
    case isTrue hwhole => -- a whole number
      refine ⟨⟨negative, Nat.toDigits 10 d.digits ++ List.replicate d.exponent.toNat '0',
        some ['0'], none⟩, Numeral.isSound_fraction negative
          ((Decimal.isNumber_toDigits _).append (Decimal.toDigits_ne_zero hdigits)
            fun _ => Decimal.isDigit_of_mem_replicate) isRun_zero, ?_⟩
      unfold Decimal.positional
      rw [Numeral.chars_mk, if_pos hwhole.1, if_neg hdigits]
      simp [Numeral.fractionChars, Numeral.exponentChars]
    case isFalse hwhole =>
      split
      case isTrue hpoint => -- a number with a point
        have hexponent : ¬ 0 ≤ d.exponent := fun h => hwhole ⟨h, hpoint.2⟩
        refine ⟨⟨negative, Nat.toDigits 10 (d.digits / Nat.pow 10 (-d.exponent).toNat),
          some (Decimal.padded (-d.exponent).toNat
            (d.digits % Nat.pow 10 (-d.exponent).toNat)).toList, none⟩,
          Numeral.isSound_fraction negative (Decimal.isNumber_toDigits _)
            (Decimal.isRun_padded _ _), ?_⟩
        unfold Decimal.positional
        rw [Numeral.chars_mk, if_neg hexponent]
        simp [Numeral.fractionChars, Numeral.exponentChars]
      case isFalse => -- a number with an exponent
        obtain ⟨whole, f, hwhole, hf, htext⟩ := exists_mantissa hdigits
        generalize (digitCount d.digits : Int) + d.exponent - 1 = power
        refine ⟨⟨negative, whole, f, some (decide (power < 0), Nat.toDigits 10 power.natAbs)⟩,
          Numeral.isSound_exponent negative _ hwhole hf (Decimal.isRun_toDigits _), ?_⟩
        simp only at htext
        rw [Numeral.chars_mk, String.toList_append, String.toList_append, String.toList_append,
          String.toList_append, htext]
        by_cases hpower : power < 0 <;> simp [Numeral.exponentChars, hpower]

end Gathering.Json
