import Gathering.Json.Reading
import Gathering.Proofs.Decimal.Finite
import Gathering.Proofs.Json.Written
import Gathering.Proofs.Time.Text

/-!
# Reading back records

A record is written as an object with its fields in order. Reading it gives the
fields with their trees (`fields?_object`), and a text or an instant comes back
from its tree as it was. What becomes of a float depends on arithmetic that this
module leaves alone: the float that its text is read as has a name
(`reread?`), and a record with floats comes back with these. Only a float that is
not finite is known to be lost, since it is written as `null`
(`rereadOptional?_eq_filter`).
-/

namespace Gathering.Json

/-! ## Fields

Fields are looked up by name among those that were read. Where the names are known and different,
the look-up can be followed one field at a time. -/

theorem memberTrees_eq (members : List (String × Value)) :
    memberTrees members = members.map fun m => (piecesOf m.1, m.2.tree) := by
  induction members with
  | nil => rfl
  | cons m members ih => exact congrArg (_ :: ·) ih

/-- Members with known names, none twice, are all read. -/
theorem knownMembers?_map {names : List String} {members : List (String × Value)}
    (hknown : ∀ m ∈ members, m.1 ∈ names) (hnodup : (members.map (·.1)).Nodup) :
    knownMembers? names (members.map fun m => (piecesOf m.1, m.2.tree)) =
      some (members.map fun m => (m.1, m.2.tree)) := by
  induction members with
  | nil => rfl
  | cons m members ih =>
    obtain ⟨hnot, hnodup⟩ := List.nodup_cons.mp hnodup
    have hfirst : names.contains m.1 = true :=
      List.elem_eq_true_of_mem (hknown m List.mem_cons_self)
    have hother : (members.map fun m => (m.1, m.2.tree)).any (·.1 == m.1) = false := by
      rw [List.any_map, List.any_eq_false]
      intro m' hm' heq
      exact hnot (List.mem_map.mpr ⟨m', hm', eq_of_beq heq⟩)
    rw [List.map_cons, knownMembers?, textOf?_piecesOf]
    simp only [Option.bind_eq_bind, Option.bind_some]
    rw [ih (fun m' hm' => hknown m' (List.mem_cons_of_mem m hm')) hnodup]
    simp only [Option.bind_some, hfirst, hother, if_true]
    rfl

theorem fields?_object {members : List (String × Value)} (hnodup : (members.map (·.1)).Nodup) :
    (Value.object members).tree.fields? (members.map (·.1)) =
      some (members.map fun m => (m.1, m.2.tree)) := by
  show knownMembers? _ (memberTrees members) = _
  rw [memberTrees_eq]
  exact knownMembers?_map (fun m hm => List.mem_map.mpr ⟨m, hm, rfl⟩) hnodup

/-- **A written record is read by its fields.** -/
theorem read_object {α : Type} {names : List String} {members : List (String × Value)}
    (hnames : members.map (·.1) = names) (hnodup : names.Nodup) (read : Fields → Option α) :
    ((Value.object members).tree.fields? names >>= read) =
      read (members.map fun m => (m.1, m.2.tree)) := by
  subst hnames
  rw [fields?_object hnodup]
  rfl

/-- A field is looked for one by one. -/
theorem lookup_cons_eq (other name : String) (t : Tree) (fields : Fields) :
    List.lookup name ((other, t) :: fields) =
      if name = other then some t else List.lookup name fields := by
  rw [List.lookup_cons]
  by_cases h : name = other
  · rw [if_pos h, beq_iff_eq.mpr h]
  · rw [if_neg h, beq_eq_false_iff_ne.mpr h]

/-- A field that must be there, and is not the first one or is. -/
theorem required_cons {α : Type} (other name : String) (t : Tree) (fields : Fields)
    (read : Tree → Option α) : Fields.required ((other, t) :: fields) name read =
      if name = other then read t else Fields.required fields name read := by
  unfold Fields.required
  rw [lookup_cons_eq]
  split <;> rfl

/-- A value that may be `null`. -/
def optionally {α : Type} (read : Tree → Option α) : Tree → Option (Option α)
  | .null => some none
  | t => (read t).map some

/-- A field that may be missing, and is not the first one or is. -/
theorem optional_cons {α : Type} (other name : String) (t : Tree) (fields : Fields)
    (read : Tree → Option α) : Fields.optional ((other, t) :: fields) name read =
      if name = other then optionally read t else Fields.optional fields name read := by
  unfold Fields.optional
  rw [lookup_cons_eq]
  by_cases h : name = other
  · rw [if_pos h, if_pos h]
    cases t <;> rfl
  · rw [if_neg h, if_neg h]

/-! ## Values of fields -/

theorem text?_tree (s : String) : (Value.text s).tree.text? = some s :=
  textOf?_piecesOf s

theorem choice?_tree (s : String) : (Value.text s).tree.choice? = some s :=
  textOf?_piecesOf s

theorem instant?_tree (t : Instant) : (Value.ofInstant t).tree.instant? = some t := by
  show (textOf? (piecesOf t.render)).bind Instant.parse? = some t
  rw [textOf?_piecesOf, Option.bind_some, t.parse?_render]

theorem optionally_text (s : Option String) :
    optionally Tree.text? (Value.ofOption .text s).tree = some s := by
  cases s with
  | none => rfl
  | some s => exact congrArg (Option.map some) (text?_tree s)

theorem optionally_instant (t : Option Instant) :
    optionally Tree.instant? (Value.ofOption .ofInstant t).tree = some t := by
  cases t with
  | none => rfl
  | some t =>
    show (Value.ofInstant t).tree.instant?.map some = _
    rw [instant?_tree]
    rfl

/-- **The float that a written float is read as**, if it is written as a number that can be. -/
def reread? (x : Float) : Option Float := (Value.ofFloat x).tree.float?

/-- What a written float is read as where there may be none: one without a decimal is none. -/
def rereadOptional? (x : Option Float) : Option (Option Float) :=
  optionally Tree.float? (Value.ofOption .ofFloat x).tree

theorem tree_ofFloat {x : Float} (h : x.isFinite = false) : (Value.ofFloat x).tree = .null := by
  have hform : Decimal.recordFormOfFloat? x = none := by
    rw [← Option.not_isSome_iff_eq_none, Decimal.isSome_recordFormOfFloat?_iff, h]
    exact Bool.false_ne_true
  show Number.tree (.float x) = .null
  simp only [Number.tree, hform, Option.bind_none]

/-- **A float that is read back** is read back where there may be none, too. -/
theorem rereadOptional?_of_reread? {x : Float} (h : reread? x = some x) :
    rereadOptional? (some x) = some (some x) := by
  show optionally Tree.float? (Value.ofFloat x).tree = _
  unfold reread? at h
  generalize (Value.ofFloat x).tree = t at h ⊢
  cases t with
  | number n =>
    unfold optionally
    exact congrArg (Option.map some) h
  | null | bool | text | array | object => cases h

/-- **A float that is not finite** is read as none. -/
theorem rereadOptional?_of_not_isFinite {x : Float} (h : x.isFinite = false) :
    rereadOptional? (some x) = some none := by
  show optionally Tree.float? (Value.ofFloat x).tree = _
  rw [tree_ofFloat h]
  rfl

/-- **What is read where there may be a float**: what is finite, as far as it is read back. -/
theorem rereadOptional?_eq_filter {x : Option Float}
    (h : ∀ y ∈ x, y.isFinite = true → reread? y = some y) :
    rereadOptional? x = some (x.filter Float.isFinite) := by
  cases x with
  | none => rfl
  | some y =>
    cases hfinite : y.isFinite with
    | true => rw [rereadOptional?_of_reread? (h y rfl hfinite), Option.filter_some_pos hfinite]
    | false => rw [rereadOptional?_of_not_isFinite hfinite, Option.filter_some_neg hfinite]

end Gathering.Json
