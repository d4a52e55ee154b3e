/-!
# The shortest decimal of a binary number

A floating-point number stands for every real number that rounds to it. Among
those there is a decimal with the fewest digits, and writing that one loses
nothing: reading it back gives the same number. This module finds it in exact
arithmetic over natural numbers.

## The search

A positive finite number is `m · 2^q`. The reals that round to it lie between
the midpoints to its two neighbours, and the midpoints themselves belong to it
exactly if `m` is even. The lower neighbour is half as far away when `m` is the
least significand of its binade. For `n = 1, 2, …` the search looks at the grid
of decimals with `n` digits around the number: if any point of the grid rounds
to the number, then one of its two neighbours on the grid does. The first grid
with a hit gives the fewest digits, and of two hits the nearer one is taken. Two
equally near ones are a **tie**, which each layout breaks in its own way.
Seventeen digits always suffice.
-/

namespace Gathering

/-- A non-negative decimal `digits · 10^exponent`. -/
structure Decimal where
  /-- The digits, read as one natural number. -/
  digits : Nat
  /-- The power of ten that the last digit stands for. -/
  exponent : Int
  deriving DecidableEq, Repr

/-- Which of two equally near decimals is taken. -/
inductive TieBreak where
  /-- The larger one. -/
  | up
  /-- The one whose last digit is even. -/
  | toEven
  deriving DecidableEq, Repr

/-- Whether the lower one of two equally near decimals is taken, if `below` are its digits. -/
def TieBreak.takesLower : TieBreak → (below : Nat) → Bool
  | up, _ => false
  | toEven, below => below % 2 == 0

/-- How many decimal digits a natural number has; zero has one. -/
def digitCount (n : Nat) : Nat :=
  (Nat.toDigits 10 n).length

/-- **What a bit pattern of a floating-point number stands for.** -/
inductive Binary where
  /-- Not a number. -/
  | nan
  /-- An infinity; `negative` gives its sign. -/
  | infinite (negative : Bool)
  /-- The number `significand · 2^exponent`, negated if `negative`. -/
  | finite (negative : Bool) (significand : Nat) (exponent : Int)
  deriving DecidableEq, Repr

/-- The number that a bit pattern of 1 sign bit, 11 exponent bits and 52 fraction bits stands
for. -/
def Binary.ofBits (bits : UInt64) : Binary :=
  let negative := bits >>> 63 == 1
  let biased := ((bits >>> 52) &&& 0x7FF).toNat
  let fraction := (bits &&& 0xFFFFFFFFFFFFF).toNat
  if biased == 0x7FF then
    if fraction == 0 then .infinite negative else .nan
  else if biased == 0 then .finite negative fraction (-1074)
  else .finite negative ((1 <<< 52) + fraction) (biased - 1075)

/-- The number that a float stands for. -/
def Binary.ofFloat (x : Float) : Binary :=
  .ofBits x.toBits

/-- **The reals that round to a positive number**, as three multiples of one unit: the number
itself and the two midpoints around it. The unit is `2^scale`. -/
structure RoundingInterval where
  /-- The number, in units. -/
  value : Nat
  /-- The midpoint to the lower neighbour, in units. -/
  low : Nat
  /-- The midpoint to the upper neighbour, in units. -/
  high : Nat
  /-- Whether the midpoints themselves round to the number. -/
  closed : Bool
  /-- The binary exponent of the unit. -/
  scale : Int
  deriving DecidableEq, Repr

/-- The interval of `m · 2^q`: a quarter of the last binary place is fine enough for every
midpoint. -/
def RoundingInterval.of (m : Nat) (q : Int) : RoundingInterval where
  value := 4 * m
  low := if m == 1 <<< 52 && q > -1074 then 4 * m - 1 else 4 * m - 2
  high := 4 * m + 2
  closed := m % 2 == 0
  scale := q - 2

namespace RoundingInterval

/-- Whether the decimal `d · 10^e` rounds to the number. -/
def holds (r : RoundingInterval) (d : Nat) (e : Int) : Bool :=
  let lhs := d * Nat.pow 10 e.toNat * Nat.pow 2 (-r.scale).toNat
  let unit := Nat.pow 10 (-e).toNat * Nat.pow 2 r.scale.toNat
  if r.closed then r.low * unit ≤ lhs && lhs ≤ r.high * unit
  else r.low * unit < lhs && lhs < r.high * unit

/-- The power of ten of the number's first digit. -/
def leadingExponent (r : RoundingInterval) : Int :=
  let places : Nat := 400
  let scaled := r.value * Nat.pow 2 r.scale.toNat * Nat.pow 10 places / Nat.pow 2 (-r.scale).toNat
  digitCount scaled - 1 - places

/-- The nearest decimal with last place `10^e` that rounds to the number, if one does. -/
def nearestOnGrid (r : RoundingInterval) (tie : TieBreak) (e : Int) : Option Nat :=
  let num := r.value * Nat.pow 2 r.scale.toNat * Nat.pow 10 (-e).toNat
  let den := Nat.pow 10 e.toNat * Nat.pow 2 (-r.scale).toNat
  let below := num / den
  match r.holds below e, r.holds (below + 1) e with
  | true, true =>
    let twice := 2 * (num % den)
    let takesLower := twice < den || (twice == den && tie.takesLower below)
    some (if takesLower then below else below + 1)
  | true, false => some below
  | false, true => some (below + 1)
  | false, false => none

/-- The search through ever finer grids, `fuel` of them. -/
def search (r : RoundingInterval) (tie : TieBreak) : Nat → Int → Decimal
  | 0, e => ⟨(r.nearestOnGrid tie e).getD 0, e⟩
  | fuel + 1, e =>
    match r.nearestOnGrid tie e with
    | some d => ⟨d, e⟩
    | none => r.search tie fuel (e - 1)

/-- The shortest decimal that rounds to the number. -/
def shortest (r : RoundingInterval) (tie : TieBreak) : Decimal :=
  r.search tie 17 r.leadingExponent

end RoundingInterval

/-- The decimal without the zeros at its end; zero keeps one digit. -/
def Decimal.stripZeros : Nat → Decimal → Decimal
  | 0, d => d
  | fuel + 1, d =>
    if d.digits ≠ 0 ∧ d.digits % 10 = 0 then stripZeros fuel ⟨d.digits / 10, d.exponent + 1⟩ else d

/-- **The shortest decimal that reads back as `m · 2^q`**, for a number of 53 binary places at
most. -/
def Decimal.shortest (tie : TieBreak) (m : Nat) (q : Int) : Decimal :=
  if m = 0 then ⟨0, 0⟩
  else
    let d := (RoundingInterval.of m q).shortest tie
    d.stripZeros (digitCount d.digits)

end Gathering
