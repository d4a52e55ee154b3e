import Gathering.Proofs.Json.Numeral
import Gathering.Proofs.Json.Strings
import Gathering.Proofs.Text.Utf8

/-!
# Reading back values

Every value is written as some tree (`Value.tree`), and the bytes of the value
are read as this tree (`Tree.ofBytes?_toBytes`). Nothing is lost on the way but
what writing itself loses: a float without a decimal is written as `null`.

The proof follows the value. A value is read from the front of the text, whatever
comes behind it, unless it goes on with a number; and in an array or an object
what comes behind a value is a comma or a bracket. Reading takes two steps of
depth for each character at most, so that the depth is enough for the length.
-/

namespace Gathering.Json

/-- The characters of a text as they are read. -/
def glyphs (s : String) : Glyphs := s.toList.map some

/-! ## The tree of a value -/

/-- The tree of a number: the numeral that its text is read as, or `null` for a float without a
decimal. -/
def Number.tree : Number → Tree
  | .int n => .number (.ofInt n)
  | .float x =>
    match (Decimal.recordFormOfFloat? x).bind fun text => numeral? (glyphs text) with
    | some (n, _) => .number n
    | none => .null

mutual

/-- **The tree that a value is written as.** -/
def Value.tree : Value → Tree
  | .null => .null
  | .bool b => .bool b
  | .number n => n.tree
  | .text s => .text (piecesOf s)
  | .array items => .array (itemTrees items)
  | .object members => .object (memberTrees members)

/-- The trees of the items of an array. -/
def itemTrees : List Value → List Tree
  | [] => []
  | v :: vs => v.tree :: itemTrees vs

/-- The trees of the members of an object. -/
def memberTrees : List (String × Value) → List (List Piece × Tree)
  | [] => []
  | (name, v) :: vs => (piecesOf name, v.tree) :: memberTrees vs

end

/-! ## The first character

A reader of values looks at the first character to know what follows. So it has to be told of
every value what it begins with, and that this is no space and does not close an array. -/

/-- A value begins with a character that is neither space nor a closing bracket. -/
def Begins (gs : Glyphs) : Prop :=
  ∃ c rest, gs = some c :: rest ∧ isSpace (some c) = false ∧ c ≠ ']'

/-- Nothing is skipped in front of a value. -/
theorem Begins.skipSpace {gs : Glyphs} (h : Begins gs) : skipSpace gs = gs := by
  obtain ⟨c, rest, rfl, hspace, _⟩ := h
  unfold Json.skipSpace
  rw [List.dropWhile_cons, hspace]
  rfl

theorem Begins.append {gs : Glyphs} (h : Begins gs) (rest : Glyphs) : Begins (gs ++ rest) := by
  obtain ⟨c, gs, rfl, h⟩ := h
  exact ⟨c, gs ++ rest, rfl, h⟩

/-- A numeral begins with its sign or a digit. -/
theorem Numeral.IsSound.exists_head {n : Numeral} (h : n.IsSound) :
    ∃ c cs, n.chars = c :: cs ∧ (c = '-' ∨ c.isDigit = true) := by
  unfold Numeral.chars Numeral.signChars
  split
  · exact ⟨'-', _, rfl, .inl rfl⟩
  · obtain ⟨d, ds, hds⟩ := List.exists_cons_of_ne_nil h.whole.ne_nil
    exact ⟨d, _, by rw [hds]; rfl, .inr (h.whole.isDigit d (hds ▸ List.mem_cons_self))⟩

theorem ne_of_numeral {c : Char} (h : c = '-' ∨ c.isDigit = true) (d : Char) (hminus : d ≠ '-')
    (hdigit : d.isDigit = false) : c ≠ d := by
  rintro rfl
  exact h.elim hminus (by simp [hdigit])

theorem Numeral.IsSound.begins {n : Numeral} (h : n.IsSound) : Begins (n.chars.map some) := by
  obtain ⟨c, cs, hcs, hc⟩ := h.exists_head
  have hne := ne_of_numeral hc
  refine ⟨c, cs.map some, by rw [hcs]; rfl, ?_, hne ']' (by decide) rfl⟩
  simp [isSpace, hne ' ' (by decide) rfl, hne '\n' (by decide) rfl, hne '\t' (by decide) rfl,
    hne '\r' (by decide) rfl]

/-- **A numeral is read up to where it ends.** -/
theorem value?_numeral {n : Numeral} (h : n.IsSound) (fuel : Nat) {gs : Glyphs}
    (hgs : NoNumber gs) :
    value? (fuel + 1) (n.chars.map some ++ gs) = some (.number n, gs) := by
  have hread := numeral?_append h hgs
  obtain ⟨c, cs, hcs, hc⟩ := h.exists_head
  rw [value?, (h.begins.append gs).skipSpace]
  rw [hcs] at hread ⊢
  -- none of the other kinds of value begins like a number
  split
  all_goals first
    | next heq =>
      exact absurd (Option.some.inj (List.head_eq_of_cons_eq heq))
        (ne_of_numeral hc _ (by decide) rfl)
    | skip
  rw [hread]
  rfl

/-- **A number is written as a sound numeral**, or as `null`. -/
theorem Number.written (n : Number) :
    (∃ numeral : Numeral, numeral.IsSound ∧ n.tree = .number numeral ∧
      n.render.toList = numeral.chars) ∨ n.tree = .null ∧ n.render = "null" := by
  cases n with
  | int n =>
    refine .inl ⟨.ofInt n, Numeral.isSound_ofInt n, rfl, ?_⟩
    unfold Number.render Numeral.ofInt
    rw [Numeral.chars_mk]
    simp [Numeral.fractionChars, Numeral.exponentChars]
  | float x =>
    cases hform : Decimal.recordFormOfFloat? x with
    | none => exact .inr ⟨by simp [Number.tree, hform], by simp [Number.render, hform]⟩
    | some text =>
      have htext : ∃ numeral : Numeral, numeral.IsSound ∧ numeral.chars = text.toList := by
        unfold Decimal.recordFormOfFloat? at hform
        split at hform
        · cases hform
          exact exists_numeral_recordForm _ _
        · cases hform
      obtain ⟨numeral, hsound, hchars⟩ := htext
      -- the text is the numeral and nothing else, so that the numeral is read back from it
      have hread := numeral?_append hsound noNumber_nil
      rw [List.append_nil, hchars] at hread
      exact .inl ⟨numeral, hsound, by simp [Number.tree, hform, glyphs, hread],
        by simp [Number.render, hform, hchars]⟩

/-! ## Values

Each kind of value has a first character of its own, which leads the reader to it. The lemmas
follow the reader one step: into a string or a number, past the bracket of an array or an object,
and from one item or member to the next. -/

theorem glyphs_quoted (s : String) : glyphs (quoted s) =
    some '"' :: ((s.toList.flatMap escapeChar).map some ++ [some '"']) := by
  unfold quoted
  simp [glyphs]

/-- **A string is read up to its end.** -/
theorem value?_quoted (s : String) (fuel : Nat) (gs : Glyphs) :
    value? (fuel + 1) (glyphs (quoted s) ++ gs) = some (.text (piecesOf s), gs) := by
  rw [glyphs_quoted, List.cons_append, List.append_assoc]
  show (pieces? _).map _ = _
  rw [List.singleton_append, pieces?_quoted]
  rfl

/-- **A number is read up to its end.** -/
theorem value?_number (n : Number) (fuel : Nat) {gs : Glyphs} (hgs : NoNumber gs) :
    value? (fuel + 1) (glyphs n.render ++ gs) = some (n.tree, gs) := by
  rcases n.written with ⟨numeral, hsound, htree, htext⟩ | ⟨htree, htext⟩
  · unfold glyphs
    rw [htext, htree]
    exact value?_numeral hsound fuel hgs
  · rw [htext, htree]
    rfl

theorem glyphs_array (items : List Value) : glyphs (Value.array items).render =
    some '[' :: (glyphs (renderItems items) ++ [some ']']) := by
  simp [Value.render, glyphs]

theorem glyphs_object (members : List (String × Value)) : glyphs (Value.object members).render =
    some '{' :: (glyphs (renderMembers members) ++ [some '}']) := by
  simp [Value.render, glyphs]

/-- The first character of a value is the letter of a word, a sign or a digit, a quote, or an
opening bracket. -/
theorem Value.begins (v : Value) : Begins (glyphs v.render) := by
  cases v with
  | null => exact ⟨'n', _, rfl, by decide, by decide⟩
  | bool b =>
    cases b
    · exact ⟨'f', _, rfl, by decide, by decide⟩
    · exact ⟨'t', _, rfl, by decide, by decide⟩
  | number n =>
    show Begins (glyphs n.render)
    rcases n.written with ⟨numeral, hsound, _, htext⟩ | ⟨_, htext⟩
    · unfold glyphs
      rw [htext]
      exact hsound.begins
    · rw [htext]
      exact ⟨'n', _, rfl, by decide, by decide⟩
  | text s => exact ⟨'"', _, glyphs_quoted s, by decide, by decide⟩
  | array items => exact ⟨'[', _, glyphs_array items, by decide, by decide⟩
  | object members => exact ⟨'{', _, glyphs_object members, by decide, by decide⟩

theorem glyphs_items (v w : Value) (vs : List Value) : glyphs (renderItems (v :: w :: vs)) =
    glyphs v.render ++ some ',' :: glyphs (renderItems (w :: vs)) := by
  simp [renderItems, glyphs]

theorem glyphs_member (name : String) (v : Value) : glyphs (renderMembers [(name, v)]) =
    glyphs (quoted name) ++ some ':' :: glyphs v.render := by
  simp [renderMembers, glyphs]

theorem glyphs_members (name : String) (v : Value) (m : String × Value)
    (vs : List (String × Value)) : glyphs (renderMembers ((name, v) :: m :: vs)) =
      glyphs (quoted name) ++
        some ':' :: (glyphs v.render ++ some ',' :: glyphs (renderMembers (m :: vs))) := by
  simp [renderMembers, glyphs]

/-- The members of an object begin with the first name. -/
theorem glyphs_members_append (m : String × Value) (vs : List (String × Value)) (gs : Glyphs) :
    ∃ rest, glyphs (renderMembers (m :: vs)) ++ gs = glyphs (quoted m.1) ++ rest := by
  cases vs with
  | nil => exact ⟨_, by rw [glyphs_member, List.append_assoc]⟩
  | cons m' vs => exact ⟨_, by rw [glyphs_members, List.append_assoc]⟩

theorem begins_items (v : Value) (vs : List Value) : Begins (glyphs (renderItems (v :: vs))) := by
  cases vs with
  | nil => exact v.begins
  | cons w vs =>
    rw [glyphs_items]
    exact v.begins.append _

theorem Value.length_pos (v : Value) : 0 < (glyphs v.render).length := by
  obtain ⟨c, rest, hrest, _⟩ := v.begins
  rw [hrest]
  exact Nat.succ_pos _

theorem value?_items {gs : Glyphs} (h : Begins gs) (fuel : Nat) :
    value? (fuel + 1) (some '[' :: gs) =
      (items? fuel gs).map fun (items, rest) => (.array items, rest) := by
  have hskip := h.skipSpace
  obtain ⟨c, rest, rfl, _, hclose⟩ := h
  rw [value?, show skipSpace (some '[' :: some c :: rest) = some '[' :: some c :: rest from rfl]
  simp only [hskip]
  split
  · next heq => exact absurd (Option.some.inj (List.head_eq_of_cons_eq heq)) hclose
  · rfl

theorem value?_members (name : String) (gs : Glyphs) (fuel : Nat) :
    value? (fuel + 1) (some '{' :: (glyphs (quoted name) ++ gs)) =
      (members? fuel (glyphs (quoted name) ++ gs)).map
        fun (members, rest) => (.object members, rest) := by
  rw [glyphs_quoted]
  rfl

theorem items?_comma {fuel : Nat} {gs rest : Glyphs} {t : Tree}
    (h : value? fuel gs = some (t, some ',' :: rest)) :
    items? (fuel + 1) gs = (items? fuel rest).map fun (ts, gs) => (t :: ts, gs) := by
  rw [items?, h]
  show (items? fuel rest).bind _ = _
  cases items? fuel rest <;> rfl

theorem items?_close {fuel : Nat} {gs rest : Glyphs} {t : Tree}
    (h : value? fuel gs = some (t, some ']' :: rest)) :
    items? (fuel + 1) gs = some ([t], rest) := by
  rw [items?, h]
  rfl

theorem members?_comma {fuel : Nat} {gs rest : Glyphs} {t : Tree} (name : String)
    (h : value? fuel gs = some (t, some ',' :: rest)) :
    members? (fuel + 1) (glyphs (quoted name) ++ some ':' :: gs) =
      (members? fuel rest).map fun (ts, gs) => ((piecesOf name, t) :: ts, gs) := by
  rw [glyphs_quoted, List.cons_append, List.append_assoc, List.singleton_append, members?]
  show (pieces? _).bind _ = _
  rw [pieces?_quoted]
  show (value? fuel gs).bind _ = _
  rw [h]
  show (members? fuel rest).bind _ = _
  cases members? fuel rest <;> rfl

theorem members?_close {fuel : Nat} {gs rest : Glyphs} {t : Tree} (name : String)
    (h : value? fuel gs = some (t, some '}' :: rest)) :
    members? (fuel + 1) (glyphs (quoted name) ++ some ':' :: gs) =
      some ([(piecesOf name, t)], rest) := by
  rw [glyphs_quoted, List.cons_append, List.append_assoc, List.singleton_append, members?]
  show (pieces? _).bind _ = _
  rw [pieces?_quoted]
  show (value? fuel gs).bind _ = _
  rw [h]
  rfl

theorem length_items_pos (v : Value) (vs : List Value) :
    0 < (glyphs (renderItems (v :: vs))).length := by
  obtain ⟨c, rest, hrest, _⟩ := begins_items v vs
  rw [hrest]
  exact Nat.succ_pos _

theorem length_members_pos (m : String × Value) (vs : List (String × Value)) :
    0 < (glyphs (renderMembers (m :: vs))).length := by
  obtain ⟨rest, hrest⟩ := glyphs_members_append m vs []
  rw [List.append_nil, glyphs_quoted] at hrest
  rw [hrest]
  exact Nat.succ_pos _

/-! ## Whole values -/

/-- **What is written is read back** with so much depth: everything whose characters the depth is
enough for. -/
structure ReadsBack (fuel : Nat) : Prop where
  /-- A value, unless a number goes on behind it. -/
  value : ∀ (v : Value) (gs : Glyphs), 2 * (glyphs v.render).length ≤ fuel + 1 → NoNumber gs →
    value? fuel (glyphs v.render ++ gs) = some (v.tree, gs)
  /-- The items of an array up to its closing bracket. -/
  items : ∀ (v : Value) (vs : List Value) (gs : Glyphs),
    2 * (glyphs (renderItems (v :: vs))).length ≤ fuel →
    items? fuel (glyphs (renderItems (v :: vs)) ++ some ']' :: gs) =
      some (itemTrees (v :: vs), gs)
  /-- The members of an object up to its closing brace. -/
  members : ∀ (m : String × Value) (vs : List (String × Value)) (gs : Glyphs),
    2 * (glyphs (renderMembers (m :: vs))).length ≤ fuel →
    members? fuel (glyphs (renderMembers (m :: vs)) ++ some '}' :: gs) =
      some (memberTrees (m :: vs), gs)

namespace ReadsBack

variable {fuel : Nat}

/-- Without depth nothing is read, but then nothing is written. -/
theorem zero : ReadsBack 0 where
  value v _ h := absurd v.length_pos (by omega)
  items v vs _ h := absurd (length_items_pos v vs) (by omega)
  members m vs _ h := absurd (length_members_pos m vs) (by omega)

/-- A value with one step more. A number or a string is read at once, and what is inside of an
array or an object has its characters between the brackets, so that the depth that is left is
enough for it. -/
theorem value_succ (ih : ReadsBack fuel) (v : Value) (gs : Glyphs)
    (hfuel : 2 * (glyphs v.render).length ≤ fuel + 1 + 1) (hgs : NoNumber gs) :
    value? (fuel + 1) (glyphs v.render ++ gs) = some (v.tree, gs) := by
  cases v with
  | null => rfl
  | bool b => cases b <;> rfl
  | number n => exact value?_number n fuel hgs
  | text s => exact value?_quoted s fuel gs
  | array items =>
    cases items with
    | nil => rfl
    | cons v vs =>
      rw [glyphs_array] at hfuel ⊢
      simp only [List.length_cons, List.length_append, List.length_nil] at hfuel
      rw [List.cons_append, List.append_assoc, List.singleton_append,
        value?_items ((begins_items v vs).append _), ih.items v vs gs (by omega)]
      rfl
  | object members =>
    cases members with
    | nil => rfl
    | cons m vs =>
      rw [glyphs_object] at hfuel ⊢
      simp only [List.length_cons, List.length_append, List.length_nil] at hfuel
      have hmembers := ih.members m vs gs (by omega)
      obtain ⟨rest, hrest⟩ := glyphs_members_append m vs (some '}' :: gs)
      rw [List.cons_append, List.append_assoc, List.singleton_append]
      rw [hrest] at hmembers ⊢
      rw [value?_members, hmembers]
      rfl

/-- Items with one step more. -/
theorem items_succ (ih : ReadsBack fuel) (v : Value) (vs : List Value) (gs : Glyphs)
    (hfuel : 2 * (glyphs (renderItems (v :: vs))).length ≤ fuel + 1) :
    items? (fuel + 1) (glyphs (renderItems (v :: vs)) ++ some ']' :: gs) =
      some (itemTrees (v :: vs), gs) := by
  cases vs with
  | nil => exact items?_close (ih.value v _ hfuel (noNumber_cons (.inr (.inl rfl)) gs))
  | cons w vs =>
    rw [glyphs_items] at hfuel ⊢
    simp only [List.length_cons, List.length_append] at hfuel
    rw [List.append_assoc, List.cons_append,
      items?_comma (ih.value v _ (by omega) (noNumber_cons (.inl rfl) _)),
      ih.items w vs gs (by omega)]
    rfl

/-- Members with one step more. -/
theorem members_succ (ih : ReadsBack fuel) (m : String × Value) (vs : List (String × Value))
    (gs : Glyphs) (hfuel : 2 * (glyphs (renderMembers (m :: vs))).length ≤ fuel + 1) :
    members? (fuel + 1) (glyphs (renderMembers (m :: vs)) ++ some '}' :: gs) =
      some (memberTrees (m :: vs), gs) := by
  obtain ⟨name, v⟩ := m
  cases vs with
  | nil =>
    rw [glyphs_member] at hfuel ⊢
    simp only [List.length_cons, List.length_append] at hfuel
    rw [List.append_assoc, List.cons_append]
    exact members?_close name (ih.value v _ (by omega) (noNumber_cons (.inr (.inr rfl)) gs))
  | cons m vs =>
    rw [glyphs_members] at hfuel ⊢
    simp only [List.length_cons, List.length_append] at hfuel
    rw [List.append_assoc, List.cons_append, List.append_assoc, List.cons_append,
      members?_comma name (ih.value v _ (by omega) (noNumber_cons (.inl rfl) _)),
      ih.members m vs gs (by omega)]
    rfl

end ReadsBack

/-- **So much depth is enough for texts of that length**, whatever comes behind them.

By induction on the depth: the lemmas for a value, for items and for members need one step
less. -/
theorem readsBack (fuel : Nat) : ReadsBack fuel := by
  induction fuel with
  | zero => exact .zero
  | succ fuel ih => exact ⟨ih.value_succ, ih.items_succ, ih.members_succ⟩

/-- **The bytes of a value are read as its tree.**

The bytes are read as the characters that were written, and nothing is left behind the value. -/
theorem Tree.ofBytes?_toBytes (v : Value) : Tree.ofBytes? v.toBytes = some v.tree := by
  have hread := (readsBack (2 * (glyphs v.render).length + 1)).value v [] (by omega) noNumber_nil
  rw [List.append_nil] at hread
  unfold Tree.ofBytes? Value.toBytes
  rw [Text.chars_encode]
  show Tree.ofGlyphs? (glyphs v.render) = _
  unfold Tree.ofGlyphs?
  rw [hread]
  rfl

end Gathering.Json
