import Gathering.Proofs.Decimal.Digits

/-!
# Texts that stand for numbers

A number in a setting is read from a text that somebody has written by hand. Here is
which texts are numbers, and what they stand for, without saying how they are read: a
whole number (`Decimal.IsWhole`), and a float with its sign, its point and its exponent
(`Decimal.IsFloat`). The reading accepts these texts and no others
(`Decimal.natBelow?_eq_some_iff`, `Decimal.float?_eq_some_iff`).

Nothing has to be tried twice on the way. A number begins with a digit or a point, so it
is neither mistaken for a word nor for a sign, and digits end where the point or the
exponent begins.
-/

namespace Gathering.Decimal

variable {text : String} {cs ds es fs : List Char} {x : Float} {e : Int} {n bound : Nat}

/-! ## Whole numbers

A whole number may have zeros in front and a plus sign, but no minus sign, not even for zero. -/

/-- **A text that stands for a natural number below a bound**: a run of digits, and perhaps a plus
sign in front. -/
def IsWhole (bound : Nat) (text : String) (n : Nat) : Prop :=
  ∃ ds, IsRun ds ∧ (text.toList = ds ∨ text.toList = '+' :: ds) ∧ natOfDigits ds = n ∧ n < bound

theorem IsRun.ne_cons {c : Char} (h : IsRun ds) (hc : c.isDigit = false) : ds ≠ c :: cs := by
  rintro rfl
  rw [h.isDigit c List.mem_cons_self] at hc
  cases hc

/-- **What is read from digits** is there just if they are a run. -/
theorem ofRun_eq_some_iff {α : Type} {value? : Option α} {a : α} :
    (if ds.isEmpty = true ∨ ¬ ds.all Char.isDigit = true then none else value?) = some a ↔
      IsRun ds ∧ value? = some a := by
  have hrun : IsRun ds ↔ ¬ (ds.isEmpty = true ∨ ¬ ds.all Char.isDigit = true) := by
    rw [not_or, Decidable.not_not, List.isEmpty_iff, List.all_eq_true]
    exact ⟨fun h => ⟨h.ne_nil, h.isDigit⟩, fun h => ⟨h.1, h.2⟩⟩
  rw [hrun]
  split
  · next hnot => exact iff_of_false nofun fun h => h.1 hnot
  · next hyes => exact (and_iff_right hyes).symm

/-- **Natural numbers are read from such texts.** -/
theorem natBelow?_eq_some_iff : natBelow? bound text = some n ↔ IsWhole bound text n := by
  have hbelow : ∀ ds : List Char,
      (if natOfDigits ds < bound then some (natOfDigits ds) else none) = some n ↔
        natOfDigits ds = n ∧ n < bound := by
    grind
  unfold natBelow? IsWhole
  dsimp only
  split
  · next cs hcs =>
    rw [ofRun_eq_some_iff, hbelow]
    constructor
    · exact fun h => ⟨cs, h.1, .inr hcs, h.2⟩
    · rintro ⟨ds, hrun, hds | hds, hn⟩
      · exact absurd (hds.symm.trans hcs) (hrun.ne_cons (by decide))
      · rw [hcs] at hds
        cases hds
        exact ⟨hrun, hn⟩
  · next hne =>
    rw [ofRun_eq_some_iff, hbelow]
    constructor
    · exact fun h => ⟨_, h.1, .inl rfl, h.2⟩
    · rintro ⟨ds, hrun, rfl | hds, hn⟩
      · exact ⟨hrun, hn⟩
      · exact absurd hds (hne ds)

/-! ## Exponents

After the letter there may be a sign. It is tried first, and since digits are no signs there is no
other way to read what begins with one.

 -/

/-- **The end of a float**: nothing, or the letter of the exponent, perhaps a sign, and a run of
digits. -/
inductive IsExponent : List Char → Int → Prop
  /-- There is no exponent. -/
  | none : IsExponent [] 0
  /-- An exponent without a sign. -/
  | plain {c : Char} {ds : List Char} (hc : c = 'e' ∨ c = 'E') (h : IsRun ds) :
      IsExponent (c :: ds) (natOfDigits ds)
  /-- A positive exponent. -/
  | plus {c : Char} {ds : List Char} (hc : c = 'e' ∨ c = 'E') (h : IsRun ds) :
      IsExponent (c :: '+' :: ds) (natOfDigits ds)
  /-- A negative exponent. -/
  | minus {c : Char} {ds : List Char} (hc : c = 'e' ∨ c = 'E') (h : IsRun ds) :
      IsExponent (c :: '-' :: ds) (-natOfDigits ds)

section

variable {c : Char} (hc : c = 'e' ∨ c = 'E')

include hc

theorem exponentOf?_plus :
    exponentOf? (c :: '+' :: ds) = some e ↔ IsRun ds ∧ (natOfDigits ds : Int) = e := by
  simp only [exponentOf?, if_pos hc]
  rw [ofRun_eq_some_iff, Option.some_inj]
  rfl

theorem exponentOf?_minus :
    exponentOf? (c :: '-' :: ds) = some e ↔ IsRun ds ∧ -(natOfDigits ds : Int) = e := by
  simp only [exponentOf?, if_pos hc]
  rw [ofRun_eq_some_iff, Option.some_inj]
  rfl

theorem exponentOf?_plain (hplus : ∀ ds, cs ≠ '+' :: ds) (hminus : ∀ ds, cs ≠ '-' :: ds) :
    exponentOf? (c :: cs) = some e ↔ IsRun cs ∧ (natOfDigits cs : Int) = e := by
  simp only [exponentOf?, if_pos hc]
  rw [ofRun_eq_some_iff, Option.some_inj]
  rfl

end

/-- **Exponents are read from the ends of numbers.** -/
theorem exponentOf?_eq_some_iff : exponentOf? es = some e ↔ IsExponent es e := by
  constructor
  · intro h
    cases es with
    | nil =>
      cases h
      exact .none
    | cons c cs =>
      by_cases hc : c = 'e' ∨ c = 'E'
      · -- a sign is looked for before digits are
        by_cases hplus : ∃ ds, cs = '+' :: ds
        · obtain ⟨ds, rfl⟩ := hplus
          obtain ⟨hrun, rfl⟩ := (exponentOf?_plus hc).mp h
          exact .plus hc hrun
        · by_cases hminus : ∃ ds, cs = '-' :: ds
          · obtain ⟨ds, rfl⟩ := hminus
            obtain ⟨hrun, rfl⟩ := (exponentOf?_minus hc).mp h
            exact .minus hc hrun
          · obtain ⟨hrun, rfl⟩ :=
              (exponentOf?_plain hc (not_exists.mp hplus) (not_exists.mp hminus)).mp h
            exact .plain hc hrun
      · have hnone : exponentOf? (c :: cs) = none := if_neg hc
        rw [hnone] at h
        cases h
  · intro h
    cases h with
    | none => rfl
    | plus hc hrun => exact (exponentOf?_plus hc).mpr ⟨hrun, rfl⟩
    | minus hc hrun => exact (exponentOf?_minus hc).mpr ⟨hrun, rfl⟩
    | plain hc hrun =>
      exact (exponentOf?_plain hc (fun _ => hrun.ne_cons (by decide))
        fun _ => hrun.ne_cons (by decide)).mpr ⟨hrun, rfl⟩

theorem IsExponent.head? (h : IsExponent es e) :
    ∀ c ∈ es.head?, c.isDigit = false ∧ c ≠ '.' := by
  cases h with
  | none => exact nofun
  | plain hc _ | plus hc _ | minus hc _ =>
    intro d hd
    obtain rfl := Option.some_inj.mp hd
    rcases hc with rfl | rfl <;> decide

/-! ## Numbers without a sign -/

/-- **A number without a sign**: digits, perhaps with a point before, behind or among them, and
perhaps an exponent. It stands for the nearest float. -/
inductive IsMagnitude : List Char → Float → Prop
  /-- There is no point. -/
  | whole {ds es : List Char} {e : Int} (hds : IsRun ds) (hes : IsExponent es e) :
      IsMagnitude (ds ++ es) (nearestFloat (natOfDigits ds) e)
  /-- There is a point, and a digit on one side of it at least. -/
  | point {ds fs es : List Char} {e : Int} (hrun : IsRun (ds ++ fs)) (hes : IsExponent es e) :
      IsMagnitude (ds ++ '.' :: (fs ++ es))
        (nearestFloat (natOfDigits (ds ++ fs)) (e - fs.length))

/-- Digits end where something else begins. -/
theorem splitDigits_append (hds : ∀ c ∈ ds, c.isDigit = true)
    (hcs : ∀ c ∈ cs.head?, c.isDigit = false) : splitDigits (ds ++ cs) = (ds, cs) := by
  have htake : cs.takeWhile Char.isDigit = [] := by
    cases cs with
    | nil => rfl
    | cons c cs => exact List.takeWhile_cons_of_neg (Bool.eq_false_iff.mp (hcs c rfl))
  have hdrop : cs.dropWhile Char.isDigit = cs := by
    cases cs with
    | nil => rfl
    | cons c cs => exact List.dropWhile_cons_of_neg (Bool.eq_false_iff.mp (hcs c rfl))
  unfold splitDigits
  rw [List.takeWhile_append_of_pos hds, List.dropWhile_append_of_pos hds, htake, hdrop,
    List.append_nil]

/-- Every text is digits and then something else. -/
theorem exists_splitDigits (cs : List Char) :
    ∃ ds rest, cs = ds ++ rest ∧ (∀ c ∈ ds, c.isDigit = true) ∧
      ∀ c ∈ rest.head?, c.isDigit = false := by
  refine ⟨cs.takeWhile Char.isDigit, cs.dropWhile Char.isDigit,
    List.takeWhile_append_dropWhile.symm, fun c hc => ?_, fun c hc => ?_⟩
  · exact List.all_eq_true.mp List.all_takeWhile c hc
  · have hhead := List.head?_dropWhile_not Char.isDigit cs
    rw [Option.mem_def.mp hc] at hhead
    exact hhead

/-- What stands for a number needs a digit on one side of the point, and an exponent that can be
read. -/
theorem ofDigits_eq_some_iff {f : Int → Float} (hds : ∀ c ∈ ds, c.isDigit = true)
    (hfs : ∀ c ∈ fs, c.isDigit = true) :
    (if ds.isEmpty = true ∧ fs.isEmpty = true then none else (exponentOf? es).map f) = some x ↔
      IsRun (ds ++ fs) ∧ ∃ e, exponentOf? es = some e ∧ f e = x := by
  have hrun : IsRun (ds ++ fs) ↔ ¬ (ds.isEmpty = true ∧ fs.isEmpty = true) := by
    rw [List.isEmpty_iff, List.isEmpty_iff, ← List.append_eq_nil_iff]
    exact ⟨fun h => h.ne_nil, fun h =>
      ⟨h, fun c hc => (List.mem_append.mp hc).elim (hds c) (hfs c)⟩⟩
  rw [hrun]
  split
  · next hnot => exact iff_of_false nofun fun h => h.1 hnot
  · next hyes => rw [Option.map_eq_some_iff, and_iff_right hyes]

theorem magnitude?_whole (hds : ∀ c ∈ ds, c.isDigit = true)
    (hes : ∀ c ∈ es.head?, c.isDigit = false ∧ c ≠ '.') :
    magnitude? (ds ++ es) = some x ↔
      IsRun ds ∧ ∃ e, exponentOf? es = some e ∧ nearestFloat (natOfDigits ds) e = x := by
  have hpoint : ∀ rest, es ≠ '.' :: rest := fun rest h => (hes '.' (by rw [h]; rfl)).2 rfl
  simp only [magnitude?, splitDigits_append hds fun c hc => (hes c hc).1]
  rw [ofDigits_eq_some_iff hds (List.forall_mem_nil _)]
  simp

theorem magnitude?_point (hds : ∀ c ∈ ds, c.isDigit = true) (hfs : ∀ c ∈ fs, c.isDigit = true)
    (hes : ∀ c ∈ es.head?, c.isDigit = false) :
    magnitude? (ds ++ '.' :: (fs ++ es)) = some x ↔
      IsRun (ds ++ fs) ∧ ∃ e, exponentOf? es = some e ∧
        nearestFloat (natOfDigits (ds ++ fs)) (e - fs.length) = x := by
  have hpoint : ∀ c ∈ ('.' :: (fs ++ es)).head?, c.isDigit = false := by
    rintro c ⟨⟩
    rfl
  simp only [magnitude?, splitDigits_append hds hpoint, splitDigits_append hfs hes]
  exact ofDigits_eq_some_iff hds hfs

/-- **Floats are read from numbers without a sign.**

Every text is a run of digits, which may be empty, and something else. If that begins with a
point, there is another such run behind it. So the text is cut up before anything is decided. -/
theorem magnitude?_eq_some_iff : magnitude? cs = some x ↔ IsMagnitude cs x := by
  constructor
  · intro h
    obtain ⟨ds, rest, rfl, hds, hrest⟩ := exists_splitDigits cs
    by_cases hpoint : ∃ rest', rest = '.' :: rest'
    · obtain ⟨rest', rfl⟩ := hpoint
      obtain ⟨fs, es, rfl, hfs, hes⟩ := exists_splitDigits rest'
      obtain ⟨hrun, e, hexp, rfl⟩ := (magnitude?_point hds hfs hes).mp h
      exact .point hrun (exponentOf?_eq_some_iff.mp hexp)
    · have hend : ∀ c ∈ rest.head?, c.isDigit = false ∧ c ≠ '.' := fun c hc =>
        ⟨hrest c hc, fun heq => hpoint (heq ▸ List.head?_eq_some_iff.mp hc)⟩
      obtain ⟨hrun, e, hexp, rfl⟩ := (magnitude?_whole hds hend).mp h
      exact .whole hrun (exponentOf?_eq_some_iff.mp hexp)
  · intro h
    cases h with
    | whole hrun hexp =>
      exact (magnitude?_whole hrun.isDigit hexp.head?).mpr
        ⟨hrun, _, exponentOf?_eq_some_iff.mpr hexp, rfl⟩
    | point hrun hexp =>
      have hds := fun c hc => hrun.isDigit c (List.mem_append_left _ hc)
      have hfs := fun c hc => hrun.isDigit c (List.mem_append_right _ hc)
      exact (magnitude?_point hds hfs fun c hc => (hexp.head? c hc).1).mpr
        ⟨hrun, _, exponentOf?_eq_some_iff.mpr hexp, rfl⟩

/-! ## Floats

A word for infinity or for what is no number may be written in any case. None of them is a number,
because they begin with a letter. -/

/-- **A float without a sign**: a word in any case, or a number. -/
inductive IsUnsigned : List Char → Float → Prop
  /-- A word for infinity. -/
  | infinity {cs : List Char} (h : String.ofList (cs.map Char.toLower) ∈ ["inf", "infinity"]) :
      IsUnsigned cs (1.0 / 0.0)
  /-- The word for what is no number. -/
  | nan {cs : List Char} (h : String.ofList (cs.map Char.toLower) = "nan") :
      IsUnsigned cs (0.0 / 0.0)
  /-- A number. -/
  | number {cs : List Char} {x : Float} (h : IsMagnitude cs x) : IsUnsigned cs x

/-- **A text that stands for a float**: one without a sign, and perhaps a sign in front. -/
inductive IsFloat (text : String) : Float → Prop
  /-- There is no sign. -/
  | plain {x : Float} (h : IsUnsigned text.toList x) : IsFloat text x
  /-- There is a plus sign. -/
  | plus {cs : List Char} {x : Float} (htext : text.toList = '+' :: cs) (h : IsUnsigned cs x) :
      IsFloat text x
  /-- There is a minus sign. -/
  | minus {cs : List Char} {x : Float} (htext : text.toList = '-' :: cs) (h : IsUnsigned cs x) :
      IsFloat text (-x)

theorem toLower_of_lt {c : Char} (h : c < 'A') : c.toLower = c := by
  unfold Char.toLower
  split
  · next hupper => exact absurd hupper.1 (UInt32.not_le.mpr h)
  · rfl

/-- A word begins with a letter, in either case. -/
theorem exists_cons_of_word {word : String} (hword : word ∈ ["inf", "infinity", "nan"])
    (h : String.ofList (cs.map Char.toLower) = word) :
    ∃ c rest, cs = c :: rest ∧ ¬ c < 'A' := by
  have hfirst : ∀ word ∈ ["inf", "infinity", "nan"],
      word.toList.head? = some 'i' ∨ word.toList.head? = some 'n' := by
    decide +kernel
  have hhead := hfirst word hword
  rw [← h, String.toList_ofList, List.head?_map] at hhead
  cases cs with
  | nil => rcases hhead with hi | hn <;> contradiction
  | cons d rest =>
    refine ⟨d, rest, rfl, fun hlt => ?_⟩
    rw [List.head?_cons, Option.map_some, toLower_of_lt hlt] at hhead
    rcases hhead with hi | hn
    · exact absurd (Option.some_inj.mp hi ▸ hlt) (by decide)
    · exact absurd (Option.some_inj.mp hn ▸ hlt) (by decide)

/-- A number begins with a digit or a point, and no letter. -/
theorem IsMagnitude.exists_cons (h : IsMagnitude cs x) :
    ∃ c rest, cs = c :: rest ∧ (c.isDigit = true ∨ c = '.') ∧ c < 'A' := by
  have hdigit : ∀ {c : Char}, c.isDigit = true → c < 'A' := fun {c} hc => by
    simp only [Char.isDigit, Bool.and_eq_true, decide_eq_true_eq] at hc
    exact UInt32.lt_of_le_of_lt hc.2 (by decide)
  cases h with
  | @whole ds es e hrun _ =>
    obtain ⟨d, ds, rfl⟩ := List.exists_cons_of_ne_nil hrun.ne_nil
    have hd := hrun.isDigit d List.mem_cons_self
    exact ⟨d, _, rfl, .inl hd, hdigit hd⟩
  | @point ds fs es e hrun _ =>
    cases ds with
    | nil => exact ⟨'.', _, rfl, .inr rfl, by decide⟩
    | cons d ds =>
      have hd := hrun.isDigit d List.mem_cons_self
      exact ⟨d, _, rfl, .inl hd, hdigit hd⟩

/-- No number is a word: it begins with a digit or a point, and these come before the letters. -/
theorem IsMagnitude.ne_word {word : String} (h : IsMagnitude cs x)
    (hword : word ∈ ["inf", "infinity", "nan"]) : String.ofList (cs.map Char.toLower) ≠ word := by
  intro heq
  obtain ⟨c, rest, rfl, -, hlt⟩ := h.exists_cons
  obtain ⟨d, rest', hcons, hletter⟩ := exists_cons_of_word hword heq
  exact hletter ((List.cons.inj hcons).1 ▸ hlt)

/-- **Floats without a sign are read from such texts.** The words are tried first, and since no
number is a word the order does not matter. -/
theorem unsignedFloat?_eq_some_iff : unsignedFloat? cs = some x ↔ IsUnsigned cs x := by
  unfold unsignedFloat?
  dsimp only
  constructor
  · intro h
    split at h
    · next hword =>
      cases h
      exact .infinity (by simpa using hword)
    · split at h
      · next hword =>
        cases h
        exact .nan hword
      · exact .number (magnitude?_eq_some_iff.mp h)
  · intro h
    cases h with
    | infinity hword => exact if_pos (by simpa using hword)
    | nan hword => rw [hword, if_neg (by decide), if_pos rfl]
    | number h =>
      rw [if_neg (not_or.mpr ⟨h.ne_word (by decide), h.ne_word (by decide)⟩),
        if_neg (h.ne_word (by decide))]
      exact magnitude?_eq_some_iff.mpr h

theorem IsUnsigned.ne_cons {sign : Char} (h : IsUnsigned cs x) (hsign : sign = '+' ∨ sign = '-') :
    cs ≠ sign :: ds := by
  have hlt : sign < 'A' ∧ sign.isDigit = false ∧ sign ≠ '.' := by
    rcases hsign with rfl | rfl <;> decide
  rintro rfl
  have hword : ∀ word ∈ ["inf", "infinity", "nan"],
      String.ofList ((sign :: ds).map Char.toLower) ≠ word := by
    intro word hword heq
    obtain ⟨c, rest, hcons, hletter⟩ := exists_cons_of_word hword heq
    exact hletter ((List.cons.inj hcons).1 ▸ hlt.1)
  cases h with
  | infinity h => exact hword _ (List.mem_append_left ["nan"] h) rfl
  | nan h => exact hword _ (by decide) h
  | number h =>
    obtain ⟨c, rest, hcons, hfirst, -⟩ := h.exists_cons
    obtain rfl := (List.cons.inj hcons).1
    rcases hfirst with hdigit | hpoint
    · exact Bool.false_ne_true (hlt.2.1.symm.trans hdigit)
    · exact hlt.2.2 hpoint

/-- **Floats are read from such texts.**

What has a sign in front is no float without a sign, so that the three cases exclude each
other. -/
theorem float?_eq_some_iff : float? text = some x ↔ IsFloat text x := by
  unfold float?
  split
  · next cs hcs =>
    rw [unsignedFloat?_eq_some_iff]
    refine ⟨.plus hcs, fun h => ?_⟩
    cases h with
    | plain h => exact absurd hcs (h.ne_cons (.inl rfl))
    | plus htext h =>
      rw [hcs] at htext
      cases htext
      exact h
    | minus htext h =>
      rw [hcs] at htext
      cases htext
  · next cs hcs =>
    rw [Option.map_eq_some_iff]
    constructor
    · rintro ⟨y, hy, rfl⟩
      exact .minus hcs (unsignedFloat?_eq_some_iff.mp hy)
    · intro h
      cases h with
      | plain h => exact absurd hcs (h.ne_cons (.inr rfl))
      | plus htext h =>
        rw [hcs] at htext
        cases htext
      | minus htext h =>
        rw [hcs] at htext
        cases htext
        exact ⟨_, unsignedFloat?_eq_some_iff.mpr h, rfl⟩
  · next hplus hminus =>
    rw [unsignedFloat?_eq_some_iff]
    -- the text begins with neither sign, so there was none
    refine ⟨.plain, fun h => ?_⟩
    cases h with
    | plain h => exact h
    | plus htext h => exact absurd htext (hplus _)
    | minus htext h => exact absurd htext (hminus _)

end Gathering.Decimal
