import Gathering.Proofs.Json.Record
import Gathering.Proofs.Keyed

/-!
# Reading back free-form values

A free-form value is written with its containers inside each other and read by going
down into them again, and there is a limit to how far down a reader goes. Which values
come back as they were is known exactly (`Value.ofTree?_tree_iff`). A value comes back
if it is not nested deeper than the limit and is **regular**: a value that a reader
could have read in the first place. Its whole numbers fit a machine word, its floats
come back from their own texts, and the names in its objects ascend.

Whole numbers and names are settled here. Of a float it is not said which ones come
back, since this is a matter of arithmetic; the condition on it is that its text is
read as the float itself.
-/

namespace Gathering.Json

/-! ## Whole numbers

The reader gathers digits in a machine word and stops where the next one does not fit. A whole
number that does not fit is read as a float then, and so it is not read back. -/

/-- The number that digits behind a number stand for. -/
def shiftIn (n : Nat) (ds : List Char) : Nat := ds.foldl (fun n c => 10 * n + digitValue c) n

variable {n m room : Nat} {ds : List Char}

/-- Digits behind a number make it no smaller. -/
theorem le_shiftIn (n : Nat) (ds : List Char) : n ≤ shiftIn n ds := by
  induction ds generalizing n with
  | nil => exact Nat.le_refl n
  | cons c ds ih => exact Nat.le_trans (by omega) (ih (10 * n + digitValue c))

/-- **Digits are all gathered just if their number fits.** While they are gathered the number only
grows, so that if it fits in the end it has fitted all the way. -/
theorem gather_eq_iff (hn : n < wordBound) :
    gather n ds = (m, 0) ↔ m = shiftIn n ds ∧ shiftIn n ds < wordBound := by
  induction ds generalizing n with
  | nil => exact ⟨fun h => by cases h; exact ⟨rfl, hn⟩, fun h => by rw [h.1]; rfl⟩
  | cons c ds ih =>
    unfold gather
    dsimp only
    split
    next hnext => exact ih hnext
    next hnext =>
      -- what is left over is not nothing, and the number is beyond the bound already
      refine iff_of_false (fun h => by cases h) fun h => hnext ?_
      exact Nat.lt_of_le_of_lt (le_shiftIn (10 * n + digitValue c) ds) h.2

theorem shiftIn_toDigits (n : Nat) : shiftIn 0 (Nat.toDigits 10 n) = n :=
  Decimal.natOfDigits_toDigits n

/-- **A whole number is read back if it fits a machine word**, and else it is none. -/
theorem int?_ofInt (n : Int) :
    int? (.ofInt n) = if -(1 <<< 63) ≤ n ∧ n < 1 <<< 64 then some n else none := by
  have hgather (m : Nat) : gather 0 (Nat.toDigits 10 n.natAbs) = (m, 0) ↔
      m = n.natAbs ∧ n.natAbs < 1 <<< 64 := by
    have hiff : gather 0 (Nat.toDigits 10 n.natAbs) = (m, 0) ↔ _ := gather_eq_iff (by decide)
    rwa [shiftIn_toDigits] at hiff
  by_cases hfits : n.natAbs < 1 <<< 64
  case pos =>
    unfold int? Numeral.ofInt
    simp only [(hgather _).mpr ⟨rfl, hfits⟩, decide_eq_true_eq]
    by_cases hsign : n < 0
    case pos =>
      rw [if_pos hsign, Int.ofNat_natAbs_of_nonpos (Int.le_of_lt hsign), Int.neg_neg]
      exact ite_congr (propext (by omega)) (fun _ => rfl) fun _ => rfl
    case neg =>
      rw [if_neg hsign, if_pos (by omega), Int.natAbs_of_nonneg (Int.not_lt.mp hsign)]
  case neg =>
    rw [if_neg (by omega)]
    unfold int? Numeral.ofInt
    rcases h : gather 0 (Nat.toDigits 10 n.natAbs) with ⟨m, left⟩
    cases left with
    | zero => exact absurd ((hgather m).mp h).2 hfits
    | succ left => rfl

/-- **A number that a reader could have read.** -/
def Number.IsRegular : Number → Prop
  | .int n => -(1 <<< 63) ≤ n ∧ n < 1 <<< 64
  | .float x => Value.ofBytes? (Value.ofFloat x).toBytes = some (.ofFloat x)

/-- A whole number is read as one just if it fits. -/
theorem ofNumeral?_ofInt_iff (n : Int) :
    Number.ofNumeral? (.ofInt n) = some (.int n) ↔ -(1 <<< 63) ≤ n ∧ n < 1 <<< 64 := by
  unfold Number.ofNumeral?
  rw [int?_ofInt]
  by_cases h : -(1 <<< 63) ≤ n ∧ n < 1 <<< 64
  case pos =>
    rw [if_pos h]
    exact iff_of_true rfl h
  case neg =>
    -- what is read then is a float
    rw [if_neg h]
    exact iff_of_false (by simp) h

/-- A natural number that is read lies below the bound. -/
theorem lt_of_nat? {t : Tree} {bound : Nat} (h : t.nat? bound = some n) :
    n < bound := by
  obtain ⟨i, hi, rfl⟩ := Option.map_eq_some_iff.mp h
  unfold Tree.int? at hi
  split at hi
  next =>
    split at hi
    next =>
      split at hi
      next hrange =>
        cases hi
        omega
      next => cases hi
    next => cases hi
  next => cases hi

/-- **A natural number is read back just if it lies below the bound**, which fits a machine word. -/
theorem nat?_ofNat_iff {bound : Nat} (hword : bound ≤ wordBound) :
    (Value.ofNat n).tree.nat? bound = some n ↔ n < bound := by
  refine ⟨lt_of_nat?, fun h => ?_⟩
  have hnumeral : Number.ofNumeral? (.ofInt n) = some (.int n) :=
    (ofNumeral?_ofInt_iff n).mpr ⟨by omega, Int.ofNat_lt.mpr (Nat.lt_of_lt_of_le h hword)⟩
  show (Tree.int? 0 (bound - 1) (.number (.ofInt n))).map Int.toNat = _
  unfold Tree.int?
  simp only [hnumeral]
  rw [if_pos (by omega)]
  rfl

/-- A number is no container, so that it does not matter how much room there is. -/
theorem ofTree?_number_room (n : Number) (room room' : Nat) :
    Value.ofTree? room n.tree = Value.ofTree? room' n.tree := by
  rcases n.written with ⟨numeral, -, htree, -⟩ | ⟨htree, -⟩ <;> rw [htree] <;> rfl

/-- **A regular number is read back**, and no other. -/
theorem ofTree?_number_iff (room : Nat) (n : Number) :
    Value.ofTree? room n.tree = some (.number n) ↔ n.IsRegular := by
  cases n with
  | int n =>
    show (Number.ofNumeral? (.ofInt n)).map Value.number = _ ↔ -(1 <<< 63) ≤ n ∧ n < 1 <<< 64
    rw [← ofNumeral?_ofInt_iff]
    simp [Option.map_eq_some_iff]
  | float x =>
    show _ ↔ (Tree.ofBytes? (Value.ofFloat x).toBytes).bind _ = _
    rw [Tree.ofBytes?_toBytes, ofTree?_number_room _ room depthLimit]
    exact Iff.rfl

/-! ## Nesting -/

mutual

/-- **How many containers a value has inside each other.** -/
def Value.depth : Value → Nat
  | .array items => itemsDepth items + 1
  | .object members => membersDepth members + 1
  | .null | .bool _ | .number _ | .text _ => 0

/-- The depth of the deepest item. -/
def itemsDepth : List Value → Nat
  | [] => 0
  | v :: vs => max v.depth (itemsDepth vs)

/-- The depth of the deepest member. -/
def membersDepth : List (String × Value) → Nat
  | [] => 0
  | (_, v) :: vs => max v.depth (membersDepth vs)

end

mutual

/-- **A value that a reader could have read**: its numbers are regular, and the names of each object
ascend. -/
def Value.IsRegular : Value → Prop
  | .number n => n.IsRegular
  | .array items => AllRegular items
  | .object members => Ascending members ∧ AllMembersRegular members
  | .null | .bool _ | .text _ => True

/-- All items are regular. -/
def AllRegular : List Value → Prop
  | [] => True
  | v :: vs => v.IsRegular ∧ AllRegular vs

/-- All members are regular. -/
def AllMembersRegular : List (String × Value) → Prop
  | [] => True
  | (_, v) :: vs => v.IsRegular ∧ AllMembersRegular vs

end

/-! ## Members in order

A reader puts the members of an object in the order of their names, and of several with one name
it keeps the last. So an object comes back just if its names ascend, which is how objects are
kept. -/

variable {name : String} {v v' : Value} {vs members : List (String × Value)}

theorem setEntry_of_lt (h : ∀ m ∈ vs, name < m.1) : setEntry name v vs = (name, v) :: vs := by
  cases vs with
  | nil => rfl
  | cons m vs => exact if_pos (h m List.mem_cons_self)

/-- What is put in under a new name and then is at the front has the others behind it. -/
theorem eq_of_setEntry (hnew : vs.any (·.1 == name) = false)
    (h : setEntry name v vs = (name, v') :: members) : v = v' ∧ vs = members := by
  cases vs with
  | nil =>
    cases h
    exact ⟨rfl, rfl⟩
  | cons m vs =>
    obtain ⟨other, old⟩ := m
    have hne : ¬ name = other := by
      rintro rfl
      simp at hnew
    unfold setEntry at h
    split at h
    next =>
      cases h
      exact ⟨rfl, rfl⟩
    next =>
      cases h
      exact absurd rfl hne

theorem length_setEntry_le : (setEntry name v vs).length ≤ vs.length + 1 := by
  induction vs with
  | nil => exact Nat.le_refl 1
  | cons m vs ih =>
    unfold setEntry
    split
    next => exact Nat.le_refl _
    next =>
      split
      next => exact Nat.le_succ _
      next => exact Nat.succ_le_succ ih

/-- **The members that are read ascend**, and are not more than are written.

Each of them is put in at its place, and one whose name is there already is dropped. -/
theorem of_membersOf? {trees : List (List Piece × Tree)} (h : membersOf? room trees = some vs) :
    Ascending vs ∧ vs.length ≤ trees.length := by
  induction trees generalizing vs with
  | nil =>
    cases h
    exact ⟨.nil, Nat.le_refl 0⟩
  | cons t trees ih =>
    obtain ⟨name, t⟩ := t
    simp only [membersOf?, Option.bind_eq_bind, Option.bind_eq_some_iff, Option.some.injEq] at h
    obtain ⟨name, -, v, -, rest, hrest, rfl⟩ := h
    obtain ⟨hascending, hlength⟩ := ih hrest
    split
    next => exact ⟨hascending, Nat.le_succ_of_le hlength⟩
    next =>
      exact ⟨ascending_setEntry name v hascending,
        Nat.le_trans length_setEntry_le (Nat.succ_le_succ hlength)⟩

/-! ## Whole values -/

theorem bind_bind_eq_some_iff {α β γ : Type} {a? : Option α} {b? : Option β} {f : α → β → γ}
    {c : γ} : (do let a ← a?; let b ← b?; some (f a b)) = some c ↔
      ∃ a b, a? = some a ∧ b? = some b ∧ f a b = c := by
  simp [Option.bind_eq_some_iff]

mutual

/-- **The free-form values that are read back**, with so much room: the regular ones that are not
nested deeper.

By induction on the value together with the two lists. In each container there is one level less
of room for what is in it. -/
theorem Value.ofTree?_tree_iff (room : Nat) :
    (v : Value) → (Value.ofTree? room v.tree = some v ↔ v.depth ≤ room ∧ v.IsRegular)
  | .null | .bool _ => iff_of_true rfl ⟨Nat.zero_le _, trivial⟩
  | .number n => (ofTree?_number_iff room n).trans (and_iff_right (Nat.zero_le room)).symm
  | .text s => by
    refine iff_of_true ?_ ⟨Nat.zero_le _, trivial⟩
    show (textOf? (piecesOf s)).map Value.text = _
    rw [textOf?_piecesOf]
    rfl
  | .array items => by
    cases room with
    | zero => exact iff_of_false nofun fun h => Nat.not_succ_le_zero _ h.1
    | succ room =>
      show (valuesOf? room (itemTrees items)).map Value.array = _ ↔
        itemsDepth items + 1 ≤ room + 1 ∧ AllRegular items
      rw [Nat.add_le_add_iff_right, ← valuesOf?_itemTrees_iff room items]
      simp [Option.map_eq_some_iff]
  | .object members => by
    cases room with
    | zero => exact iff_of_false nofun fun h => Nat.not_succ_le_zero _ h.1
    | succ room =>
      show (membersOf? room (memberTrees members)).map Value.object = _ ↔
        membersDepth members + 1 ≤ room + 1 ∧ Ascending members ∧ AllMembersRegular members
      rw [Nat.add_le_add_iff_right, ← membersOf?_memberTrees_iff room members]
      simp [Option.map_eq_some_iff]

/-- The lists of items that are read back. -/
theorem valuesOf?_itemTrees_iff (room : Nat) :
    (vs : List Value) → (valuesOf? room (itemTrees vs) = some vs ↔
      itemsDepth vs ≤ room ∧ AllRegular vs)
  | [] => iff_of_true rfl ⟨Nat.zero_le _, trivial⟩
  | v :: vs => by
    show (do
      let v ← Value.ofTree? room v.tree
      let vs ← valuesOf? room (itemTrees vs)
      some (v :: vs)) = some (v :: vs) ↔
        max v.depth (itemsDepth vs) ≤ room ∧ v.IsRegular ∧ AllRegular vs
    rw [bind_bind_eq_some_iff, Nat.max_le, and_and_and_comm, ← Value.ofTree?_tree_iff room v,
      ← valuesOf?_itemTrees_iff room vs]
    simp

/-- The lists of members that are read back. -/
theorem membersOf?_memberTrees_iff (room : Nat) :
    (members : List (String × Value)) → (membersOf? room (memberTrees members) = some members ↔
      membersDepth members ≤ room ∧ Ascending members ∧ AllMembersRegular members)
  | [] => iff_of_true rfl ⟨Nat.zero_le _, .nil, trivial⟩
  | (name, v) :: members => by
    have hfirst := Value.ofTree?_tree_iff room v
    have hrest := membersOf?_memberTrees_iff room members
    have hread : membersOf? room (memberTrees ((name, v) :: members)) = (do
        let v ← Value.ofTree? room v.tree
        let vs ← membersOf? room (memberTrees members)
        some (if vs.any (·.1 == name) then vs else setEntry name v vs)) := by
      show (textOf? (piecesOf name)).bind _ = _
      rw [textOf?_piecesOf]
      rfl
    show _ ↔ max v.depth (membersDepth members) ≤ room ∧ Ascending ((name, v) :: members) ∧
      v.IsRegular ∧ AllMembersRegular members
    rw [Nat.max_le]
    constructor
    -- the members that are read ascend, so the first one has kept its place and the others can be
    -- told from it
    case mp =>
      intro h
      have hascending := (of_membersOf? h).1
      rw [hread, bind_bind_eq_some_iff] at h
      obtain ⟨v', vs, hv, hvs, heq⟩ := h
      have hlength : vs.length ≤ members.length := by
        have hle := (of_membersOf? hvs).2
        rwa [memberTrees_eq, List.length_map] at hle
      split at heq
      next =>
        -- no name was new, but then there would be one member less
        rw [heq] at hlength
        exact absurd hlength (Nat.not_succ_le_self _)
      next hnew =>
        obtain ⟨rfl, rfl⟩ := eq_of_setEntry (Bool.not_eq_true _ ▸ hnew) heq
        obtain ⟨hdepth, hv⟩ := hfirst.mp hv
        obtain ⟨hdepths, -, hvs⟩ := hrest.mp hvs
        exact ⟨⟨hdepth, hdepths⟩, hascending, hv, hvs⟩
    case mpr =>
      rintro ⟨⟨hdepth, hdepths⟩, hascending, hv, hmembers⟩
      obtain ⟨hlt, hascending⟩ := List.pairwise_cons.mp hascending
      have hnew : members.any (·.1 == name) = false := by
        refine List.any_eq_false.mpr fun m hm heq => ?_
        exact String.lt_irrefl name (eq_of_beq heq ▸ hlt m hm)
      rw [hread, bind_bind_eq_some_iff]
      refine ⟨v, members, hfirst.mpr ⟨hdepth, hv⟩, hrest.mpr ⟨hdepths, hascending, hmembers⟩, ?_⟩
      rw [hnew, setEntry_of_lt hlt]
      rfl

end

end Gathering.Json
