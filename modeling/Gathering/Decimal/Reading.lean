/-!
# Reading floats and whole numbers from text

Configuration values are written by hand, so the grammar of a float is
generous: an optional sign, then a number whose point may come first or last
and whose exponent is optional, or one of the words for infinity and
not-a-number in any case. The value is the float nearest to the decimal.

A whole number is ASCII digits with an optional plus sign, and has to lie below
a bound.
-/

namespace Gathering.Decimal

/-- Splits off the longest run of ASCII digits. -/
def splitDigits (cs : List Char) : List Char × List Char :=
  (cs.takeWhile Char.isDigit, cs.dropWhile Char.isDigit)

/-- The natural number that a run of digits stands for. -/
def natOfDigits (cs : List Char) : Nat :=
  cs.foldl (fun n c => 10 * n + (c.toNat - '0'.toNat)) 0

/-- **The float nearest to `digits · 10^exponent`.** Exponents so far out that the answer is plain
are answered without computing the power. -/
def nearestFloat (digits : Nat) (exponent : Int) : Float :=
  let lead : Int := (Nat.toDigits 10 digits).length + exponent
  if digits = 0 ∨ lead < -330 then 0.0
  else if lead > 310 then 1.0 / 0.0
  else Float.ofScientific digits (exponent < 0) exponent.natAbs

/-- The exponent that ends a number: nothing, or a letter `e`, an optional sign and digits. -/
def exponentOf? : List Char → Option Int
  | [] => some 0
  | c :: cs =>
    if c = 'e' ∨ c = 'E' then
      let (negative, digits) :=
        match cs with
        | '+' :: rest => (false, rest)
        | '-' :: rest => (true, rest)
        | rest => (false, rest)
      if digits.isEmpty ∨ ¬ digits.all Char.isDigit then none
      else some (if negative then -(natOfDigits digits : Int) else natOfDigits digits)
    else none

/-- An unsigned number: digits with at most one point among, before or after them, and an optional
exponent. -/
def magnitude? (cs : List Char) : Option Float :=
  let (whole, rest) := splitDigits cs
  let (fraction, rest) :=
    match rest with
    | '.' :: rest => splitDigits rest
    | rest => ([], rest)
  if whole.isEmpty ∧ fraction.isEmpty then none
  else
    (exponentOf? rest).map fun exponent =>
      nearestFloat (natOfDigits (whole ++ fraction)) (exponent - fraction.length)

/-- An unsigned float: a number, or a word for infinity or not-a-number in any case. -/
def unsignedFloat? (cs : List Char) : Option Float :=
  let word := String.ofList (cs.map Char.toLower)
  if word = "inf" ∨ word = "infinity" then some (1.0 / 0.0)
  else if word = "nan" then some (0.0 / 0.0)
  else magnitude? cs

/-- **The float that a text stands for**, with an optional sign in front. -/
def float? (s : String) : Option Float :=
  match s.toList with
  | '+' :: cs => unsignedFloat? cs
  | '-' :: cs => (unsignedFloat? cs).map (-·)
  | cs => unsignedFloat? cs

/-- **The natural number below `bound` that a text stands for**: ASCII digits with an optional
plus sign. -/
def natBelow? (bound : Nat) (s : String) : Option Nat :=
  let digits :=
    match s.toList with
    | '+' :: cs => cs
    | cs => cs
  if digits.isEmpty ∨ ¬ digits.all Char.isDigit then none
  else
    let n := natOfDigits digits
    if n < bound then some n else none

end Gathering.Decimal
