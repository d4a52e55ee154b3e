import Gathering.Decimal.Shortest

/-!
# Layouts of a float

Three texts of the same number, each for its own reader.

* **Positional**: the shortest decimal, a tie going up, with no exponent,
  however long, and no point in a whole number. It appears in error messages and
  answers.
* **Record form**: the shortest decimal, a tie going to the even last digit, with
  a point or an exponent in every number: an exponent outside the range where
  zeros stay readable, and a point inside it. It appears in stored records, where
  a number must be told apart from an integer.
* **Fixed**: a given number of places, rounded from the exact binary value with
  ties to the even neighbour. It appears in distances.
-/

namespace Gathering.Decimal

/-- The digits of a natural number as text. -/
def digitText (n : Nat) : String :=
  String.ofList (Nat.toDigits 10 n)

/-- So many zeros. -/
def zeros (n : Nat) : String :=
  String.ofList (List.replicate n '0')

/-- The digits of `n` with zeros in front up to the given width. -/
def padded (width n : Nat) : String :=
  let text := digitText n
  zeros (width - text.length) ++ text

/-- The sign in front of a number. -/
def signText (negative : Bool) : String :=
  if negative then "-" else ""

/-- Positional digits of a decimal, with a point only if a fraction is left. -/
def positional (d : Decimal) : String :=
  if 0 ≤ d.exponent then digitText d.digits ++ (if d.digits = 0 then "" else zeros d.exponent.toNat)
  else
    let places := (-d.exponent).toNat
    let unit := Nat.pow 10 places
    digitText (d.digits / unit) ++ "." ++ padded places (d.digits % unit)

/-- **The positional text of a float**: `NaN`, `inf` and `-inf` for the numbers that have no
decimal. -/
def ofFloat (x : Float) : String :=
  match Binary.ofFloat x with
  | .nan => "NaN"
  | .infinite negative => signText negative ++ "inf"
  | .finite negative m q => signText negative ++ positional (shortest .up m q)

/-- The record form of a decimal: positional where the first digit stands for at most `10^15` and
at least `10^-5`, and with a signed exponent otherwise. -/
def recordForm (d : Decimal) : String :=
  let count : Int := digitCount d.digits
  let point := count + d.exponent
  if d.digits = 0 then "0.0"
  else if 0 ≤ d.exponent ∧ point ≤ 16 then positional d ++ ".0"
  else if -5 < point ∧ point ≤ 16 then positional d
  else
    let text := digitText d.digits
    let lead := String.ofList (text.toList.take 1)
    let rest := String.ofList (text.toList.drop 1)
    let mantissa := if rest.isEmpty then lead else lead ++ "." ++ rest
    let power := point - 1
    mantissa ++ "e" ++ (if power < 0 then "-" else "+") ++ digitText power.natAbs

/-- The record form of a float; a number without a decimal has none. -/
def recordFormOfFloat? (x : Float) : Option String :=
  match Binary.ofFloat x with
  | .finite negative m q => some (signText negative ++ recordForm (shortest .toEven m q))
  | _ => none

/-- The quotient rounded to the nearest natural number, a half to the even neighbour. -/
def roundDiv (num den : Nat) : Nat :=
  let below := num / den
  let twice := 2 * (num % den)
  if twice < den then below
  else if twice = den then below + below % 2
  else below + 1

/-- **The text of a float with a fixed number of places.** -/
def fixed (places : Nat) (x : Float) : String :=
  match Binary.ofFloat x with
  | .nan => "NaN"
  | .infinite negative => signText negative ++ "inf"
  | .finite negative m q =>
    let scaled := roundDiv (m * Nat.pow 2 q.toNat * Nat.pow 10 places) (Nat.pow 2 (-q).toNat)
    let unit := Nat.pow 10 places
    signText negative ++ digitText (scaled / unit) ++ "." ++ padded places (scaled % unit)

end Gathering.Decimal
