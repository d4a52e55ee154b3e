import Gathering.Proofs.Task.Record

/-!
# The names of actions

An action can be asked for in many ways: with blank space around its name, and, if it is
a known one, in capitals. It has one name of its own, though, and that is how it is
written. Reading it gives the action again, in a text and in a record, and reading any
other text gives it just if nothing else differs (`Action.readsNames`).

A known action and an unknown one are never mistaken for each other. The letters that may
be capitals are those of ASCII, and a name that is no variant of a known one in them is
kept as it is.
-/

namespace Gathering

/-- **Texts that differ at most in the case of ASCII letters.** -/
def Text.IsVariant (s t : String) : Prop := lowercaseAscii s = lowercaseAscii t

namespace Action

open Text (IsVariant IsTrimmed trim isBlank)

variable {k a : Action} {text : String}

theorem lowercaseAscii_name : ∀ k ∈ known, Text.lowercaseAscii k.name = k.name := by
  decide +kernel

theorem isVariant_name_iff (hk : k ∈ known) :
    IsVariant text k.name ↔ Text.lowercaseAscii text = k.name := by
  unfold IsVariant
  rw [lowercaseAscii_name k hk]

theorem unknown_notMem_known (text : String) : unknown text ∉ known := by
  simp [known]

/-! ## What a name names

Reading compares the text in lower case with the names, which are in lower case. So a text is a
variant of at most one name, and a known action is what it names just if it is a variant of its
name. -/

/-- **A variant of the name of a known action names it.** -/
theorem ofTrimmed_of_isVariant (hk : k ∈ known) (h : IsVariant text k.name) :
    ofTrimmed text = k := by
  rw [isVariant_name_iff hk] at h
  unfold ofTrimmed
  rw [h]
  cases k with
  | unknown name => exact absurd hk (unknown_notMem_known name)
  | confirmation | reminder | location | closure => simp [name]

/-- **Any other name is kept.** -/
theorem ofTrimmed_of_forall_not (h : ∀ k ∈ known, ¬ IsVariant text k.name) :
    ofTrimmed text = unknown text := by
  have hne : ∀ k ∈ known, Text.lowercaseAscii text ≠ k.name := fun k hk =>
    mt (isVariant_name_iff hk).mpr (h k hk)
  calc ofTrimmed text
    _ = _ := if_neg (hne confirmation (by decide))
    _ = _ := if_neg (hne reminder (by decide))
    _ = _ := if_neg (hne location (by decide))
    _ = unknown text := if_neg (hne closure (by decide))

theorem ofTrimmed_eq_known_iff (hk : k ∈ known) :
    ofTrimmed text = k ↔ IsVariant text k.name := by
  refine ⟨fun h => ?_, ofTrimmed_of_isVariant hk⟩
  by_contra hnot
  by_cases hother : ∃ k' ∈ known, IsVariant text k'.name
  · obtain ⟨k', hk', hvariant⟩ := hother
    rw [ofTrimmed_of_isVariant hk' hvariant] at h
    exact hnot (h ▸ hvariant)
  · rw [ofTrimmed_of_forall_not fun k' hk' hvariant => hother ⟨k', hk', hvariant⟩] at h
    exact unknown_notMem_known text (h ▸ hk)

theorem ofTrimmed_eq_unknown_iff {name : String} :
    ofTrimmed text = unknown name ↔ name = text ∧ ∀ k ∈ known, ¬ IsVariant text k.name := by
  constructor
  · intro h
    have hnot : ∀ k ∈ known, ¬ IsVariant text k.name := fun k hk hvariant => by
      rw [ofTrimmed_of_isVariant hk hvariant] at h
      exact unknown_notMem_known name (h ▸ hk)
    rw [ofTrimmed_of_forall_not hnot] at h
    exact ⟨(unknown.inj h).symm, hnot⟩
  · rintro ⟨rfl, hnot⟩
    exact ofTrimmed_of_forall_not hnot

/-- **Two names name the same action** if they are the same, or variants of the name of one known
action. -/
theorem ofTrimmed_eq_iff {text' : String} :
    ofTrimmed text = ofTrimmed text' ↔
      text = text' ∨ ∃ k ∈ known, IsVariant text k.name ∧ IsVariant text' k.name := by
  constructor
  · intro h
    rcases ofTrimmed_cases text with hknown | hunknown
    · exact .inr ⟨_, hknown, (ofTrimmed_eq_known_iff hknown).mp rfl,
        (ofTrimmed_eq_known_iff hknown).mp h.symm⟩
    · exact .inl (ofTrimmed_eq_unknown_iff.mp (h.symm.trans hunknown)).1
  · rintro (rfl | ⟨k, hk, hvariant, hvariant'⟩)
    · rfl
    · exact (ofTrimmed_of_isVariant hk hvariant).trans (ofTrimmed_of_isVariant hk hvariant').symm

/-! ## What a text names -/

theorem parse_of_isBlank (h : isBlank text = true) :
    parse text = .error (.invalidInput "action is required") :=
  if_pos ((Text.isEmpty_trim text).trans h)

theorem parse_of_not_isBlank (h : isBlank text = false) :
    parse text = .ok (ofTrimmed (trim text)) :=
  parse_of_not_isEmpty (Bool.eq_false_iff.mp ((Text.isEmpty_trim text).trans h))

/-- The name of an action that was read is the trimmed text, or that of a known action. -/
theorem name_of_parse (h : parse text = .ok a) :
    isBlank text = false ∧ (a ∈ known ∨ a.name = trim text) := by
  cases hblank : isBlank text with
  | true =>
    rw [parse_of_isBlank hblank] at h
    cases h
  | false =>
    rw [parse_of_not_isBlank hblank] at h
    cases h
    refine ⟨rfl, (ofTrimmed_cases (trim text)).imp_right fun hunknown => ?_⟩
    rw [hunknown, name_unknown]

/-- **An action that is written by a name of its own**, and was read from a text. -/
structure IsNamedBy (a : Action) (text : String) : Prop where
  /-- It is read from its name. -/
  reads : parse a.name = .ok a
  /-- It is read from the bytes of its record. -/
  record : (Json.Tree.ofBytes? a.toJson.toBytes).bind ofJson? = some a
  /-- The name is not blank. -/
  notBlank : isBlank a.name = false
  /-- It has no blank space around it. -/
  trimmed : IsTrimmed a.name
  /-- An action that is not known is named by the text, and that is not the name of a known one in
  any case. -/
  unknown : ∀ name, a = .unknown name →
    name = trim text ∧ ∀ k ∈ known, ¬ IsVariant name k.name

theorem trim_name_known : ∀ k ∈ known, isBlank k.name = false ∧ trim k.name = k.name := by
  decide +kernel

/-- The name of an action that was read is trimmed, and not blank. -/
theorem trim_name_of_parse (h : parse text = .ok a) :
    isBlank a.name = false ∧ trim a.name = a.name := by
  obtain ⟨hblank, hknown | hname⟩ := name_of_parse h
  · exact trim_name_known a hknown
  · have htrim : trim a.name = a.name := by rw [hname, Text.trim_trim]
    refine ⟨?_, htrim⟩
    rw [← Text.isEmpty_trim, htrim, hname, Text.isEmpty_trim, hblank]

/-- **An action that was read is written by a name of its own.**

The name is trimmed already, so that reading it again does not change it, and its record holds the
name as it is. -/
theorem isNamedBy_of_parse (h : parse text = .ok a) : a.IsNamedBy text where
  reads := parse_name h
  record := by
    rw [Json.Tree.ofBytes?_toBytes, Option.bind_some]
    exact ofJson?_tree_iff.mpr (parse_name h)
  notBlank := (trim_name_of_parse h).1
  trimmed := (trim_name_of_parse h).2 ▸ Text.isTrimmed_trim a.name
  unknown name hname := by
    subst hname
    have hblank := (name_of_parse h).1
    rw [parse_of_not_isBlank hblank] at h
    obtain ⟨rfl, hnot⟩ := ofTrimmed_eq_unknown_iff.mp (Except.ok.inj h)
    exact ⟨rfl, hnot⟩

/-- **How two texts are read as actions.** -/
structure ReadsNames (text text' : String) : Prop where
  /-- A blank text is refused, and nothing else is. -/
  refused : ∀ e, parse text = .error e ↔
    isBlank text = true ∧ e = .invalidInput "action is required"
  /-- Any other text is read. -/
  reads : (∃ a, parse text = .ok a) ↔ isBlank text = false
  /-- What is read has a name of its own. -/
  named : ∀ a, parse text = .ok a → a.IsNamedBy text
  /-- Two texts that are not blank are read as the same action if they are the same but for the
  blank space around them, or variants of the name of one known action. -/
  same : isBlank text = false → isBlank text' = false →
    (parse text = parse text' ↔ trim text = trim text' ∨
      ∃ k ∈ known, IsVariant (trim text) k.name ∧ IsVariant (trim text') k.name)

/-- **Actions have canonical names**: all texts are read like this. -/
theorem readsNames (text text' : String) : ReadsNames text text' where
  refused e := by
    cases hblank : isBlank text with
    | true => simp [parse_of_isBlank hblank, eq_comm]
    | false => simp [parse_of_not_isBlank hblank]
  reads := by
    cases hblank : isBlank text with
    | true => simp [parse_of_isBlank hblank]
    | false => simp [parse_of_not_isBlank hblank]
  named _ := isNamedBy_of_parse
  same h h' := by
    rw [parse_of_not_isBlank h, parse_of_not_isBlank h', Except.ok.injEq, ofTrimmed_eq_iff]

-- a space that does not break is blank, but a letter without its dot is another letter
example : parse "\u00A0ReMinder " = .ok .reminder ∧
    parse "rem\u0131nder" = .ok (.unknown "rem\u0131nder") := by
  decide +kernel

end Action

end Gathering
