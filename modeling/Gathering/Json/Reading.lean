import Gathering.Json.Tree
import Gathering.Json.Value
import Gathering.Keyed
import Gathering.Time.Text

/-!
# What a JSON tree stands for

The second step of reading: a reader asks a part of a tree for the value that
it needs, and gets it or learns that the part is not of that kind.

## Numbers

A numeral with neither point nor exponent is an integer if it fits a machine
word; `-0` is a float, since no integer has a sign without a size. Every other
numeral is a float. Its leading digits are gathered in 64 bits, as many as fit;
the digits after that count as zeros. The float is that number of 64 bits
multiplied or divided by a power of ten: two rounded operations, so that the
answer may differ from the nearest float in its last place. A numeral too large
for a float stands for nothing.

## Strings

A string stands for a text if it has no gap and its code units pair up: a
leading half of a pair must be followed by its trailing half, and a trailing
half never comes alone.

## Depth

Free-form values may be nested to a given depth, which bounds the work that one
stored value can cause.
-/

namespace Gathering.Json

/-! ## Numbers -/

/-- One past the greatest number of 64 bits. -/
def wordBound : Nat := 1 <<< 64

/-- The value of a decimal digit. -/
def digitValue (c : Char) : Nat := c.toNat - '0'.toNat

/-- The leading digits of a number as far as they fit 64 bits, and how many digits were left. -/
def gather : Nat → List Char → Nat × Nat
  | n, [] => (n, 0)
  | n, c :: cs =>
    let next := 10 * n + digitValue c
    if next < wordBound then gather next cs else (n, cs.length + 1)

/-- The digits of a numeral as a number of 64 bits and a power of ten. -/
def significand (whole fraction : List Char) : Nat × Int :=
  let (n, left) := gather 0 whole
  let (n, ignored) := gather n fraction
  (n, (left : Int) - ((fraction.length : Int) - ignored))

/-- The greatest power of ten that a float holds. -/
def greatestPower : Nat := 308

/-- A power of ten as a float. -/
def powerOfTen (n : Nat) : Float :=
  Float.ofScientific 1 false n

/-- The float of a significand times a power of ten that shrinks it; a power too small for a float
is applied in steps. -/
def shrink : Nat → Float → Nat → Float
  | 0, x, _ => x
  | fuel + 1, x, n =>
    if n ≤ greatestPower then x / powerOfTen n
    else if x == 0.0 then x
    else shrink fuel (x / powerOfTen greatestPower) (n - greatestPower)

/-- The float of a significand times a power of ten, if it is finite. -/
def scale? (n : Nat) (exponent : Int) : Option Float :=
  let x := n.toUInt64.toFloat
  match exponent with
  | .ofNat e =>
    if e ≤ greatestPower then
      let y := x * powerOfTen e
      if y.isInf then none else some y
    else if n = 0 then some 0.0
    else none
  | .negSucc e => some (shrink (e + 1) x (e + 1))

/-- One past the greatest exponent that is told from an endless one. -/
def exponentBound : Nat := 1 <<< 31

/-- The exponent of a numeral: its size, or nothing if it is endless. -/
def exponentSize? (digits : List Char) : Option Nat :=
  let n := digits.foldl (fun n c => min (10 * n + digitValue c) exponentBound) 0
  if n < exponentBound then some n else none

/-- The size of the float that a numeral stands for. -/
def magnitude? (numeral : Numeral) : Option Float :=
  let (n, power) := significand numeral.whole (numeral.fraction.getD [])
  match numeral.exponent with
  | none => scale? n power
  | some (negative, digits) =>
    match exponentSize? digits with
    | some e => scale? n (if negative then power - e else power + e)
    | none => if n = 0 ∨ negative then some 0.0 else none

/-- The float that a numeral stands for, if it is finite. -/
def float? (numeral : Numeral) : Option Float :=
  (magnitude? numeral).map fun x => if numeral.negative then -x else x

/-- The integer that a numeral stands for, if it is written as one and fits a machine word. -/
def int? (numeral : Numeral) : Option Int :=
  match numeral.fraction, numeral.exponent, gather 0 numeral.whole with
  | none, none, (n, 0) =>
    if numeral.negative then
      if 0 < n ∧ n ≤ 1 <<< 63 then some (-(n : Int)) else none
    else some n
  | _, _, _ => none

/-- **The number that a numeral stands for.** -/
def Number.ofNumeral? (numeral : Numeral) : Option Number :=
  match int? numeral with
  | some n => some (.int n)
  | none => (float? numeral).map .float

/-- A number as a float. -/
def Number.toFloat : Number → Float
  | .int (.ofNat n) => n.toUInt64.toFloat
  | .int (.negSucc n) => -(n + 1).toUInt64.toFloat
  | .float x => x

/-! ## Strings -/

/-- Whether a code unit is the leading half of a pair. -/
def isLeading (n : Nat) : Bool := 0xD800 ≤ n && n ≤ 0xDBFF

/-- Whether a code unit is the trailing half of a pair. -/
def isTrailing (n : Nat) : Bool := 0xDC00 ≤ n && n ≤ 0xDFFF

/-- The characters that a string stands for. -/
def characters? : List Piece → Option (List Char)
  | [] => some []
  | .plain (some c) :: rest => (characters? rest).map (c :: ·)
  | .plain none :: _ => none
  | .unit a :: .unit b :: rest =>
    if isLeading a then
      if isTrailing b then
        (characters? rest).map (Char.ofNat (0x10000 + (a - 0xD800) * 0x400 + (b - 0xDC00)) :: ·)
      else none
    else if isTrailing a then none
    else (characters? (.unit b :: rest)).map (Char.ofNat a :: ·)
  | .unit a :: rest =>
    if isLeading a ∨ isTrailing a then none
    else (characters? rest).map (Char.ofNat a :: ·)

/-- The text that a string stands for. -/
def textOf? (pieces : List Piece) : Option String :=
  (characters? pieces).map String.ofList

/-! ## Free-form values -/

mutual

/-- The value that a tree stands for, with room for so many containers inside each other. -/
def Value.ofTree? (room : Nat) : Tree → Option Value
  | .null => some .null
  | .bool b => some (.bool b)
  | .number n => (Number.ofNumeral? n).map .number
  | .text pieces => (textOf? pieces).map .text
  | .array items =>
    match room with
    | 0 => none
    | room + 1 => (valuesOf? room items).map .array
  | .object members =>
    match room with
    | 0 => none
    | room + 1 => (membersOf? room members).map .object

/-- The values that the items of an array stand for. -/
def valuesOf? (room : Nat) : List Tree → Option (List Value)
  | [] => some []
  | t :: ts => do
    let v ← Value.ofTree? room t
    let vs ← valuesOf? room ts
    some (v :: vs)

/-- The members that an object stands for, sorted by name; of two members of one name the later
one counts. -/
def membersOf? (room : Nat) : List (List Piece × Tree) → Option (List (String × Value))
  | [] => some []
  | (name, t) :: ts => do
    let name ← textOf? name
    let v ← Value.ofTree? room t
    let vs ← membersOf? room ts
    some (if vs.any (·.1 == name) then vs else setEntry name v vs)

end

/-- How many containers a stored value may have inside each other. -/
def depthLimit : Nat := 127

/-- **The value of a byte string**, if it is JSON of limited depth. -/
def Value.ofBytes? (bytes : ByteArray) : Option Value :=
  (Tree.ofBytes? bytes).bind (Value.ofTree? depthLimit)

/-! ## Parts of a record -/

namespace Tree

/-- The text that a tree stands for. -/
def text? : Tree → Option String
  | .text pieces => textOf? pieces
  | _ => none

/-- The float that a tree stands for; an integer stands for a float too. -/
def float? : Tree → Option Float
  | .number n => (Number.ofNumeral? n).map Number.toFloat
  | _ => none

/-- The integer that a tree stands for, from `low` to `high`. -/
def int? (low high : Int) : Tree → Option Int
  | .number n =>
    match Number.ofNumeral? n with
    | some (.int n) => if low ≤ n ∧ n ≤ high then some n else none
    | _ => none
  | _ => none

/-- The natural number below a bound that a tree stands for. -/
def nat? (bound : Nat) (t : Tree) : Option Nat :=
  (t.int? 0 (bound - 1)).map Int.toNat

/-- The instant that a tree stands for. -/
def instant? (t : Tree) : Option Instant :=
  t.text?.bind Instant.parse?

/-- The name of a choice: the name itself, or an object whose only member is the name without a
value. -/
def choice? : Tree → Option String
  | .text pieces => textOf? pieces
  | .object [(name, .null)] => textOf? name
  | _ => none

/-- Every item of a list, read in one way. -/
def list? {α : Type} (read : Tree → Option α) : Tree → Option (List α)
  | .array items => items.mapM read
  | _ => none

end Tree

/-! ## Records -/

/-- The fields of a record by name. -/
abbrev Fields := List (String × Tree)

/-- The members of an object whose names are among those given. Every name must be a text, and a
known one may come once only. -/
def knownMembers? (names : List String) : List (List Piece × Tree) → Option Fields
  | [] => some []
  | (name, t) :: ts => do
    let name ← textOf? name
    let rest ← knownMembers? names ts
    if names.contains name then
      if rest.any (·.1 == name) then none else some ((name, t) :: rest)
    else some rest

/-- **The fields of a record**: the members of an object, or an array of all of them in order. -/
def Tree.fields? (names : List String) : Tree → Option Fields
  | .object members => knownMembers? names members
  | .array items => if items.length = names.length then some (names.zip items) else none
  | _ => none

namespace Fields

/-- A field that must be there. -/
def required {α : Type} (fields : Fields) (name : String) (read : Tree → Option α) : Option α :=
  (fields.lookup name).bind read

/-- A field that may be missing or `null`; what is there must be of its kind. -/
def optional {α : Type} (fields : Fields) (name : String) (read : Tree → Option α) :
    Option (Option α) :=
  match fields.lookup name with
  | none | some .null => some none
  | some t => (read t).map some

end Fields

end Gathering.Json
