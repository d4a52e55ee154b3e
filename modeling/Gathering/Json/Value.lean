/-!
# JSON values

What a stored value stands for. A number is either an **integer** – written
without a point and without an exponent, and small enough for a machine word –
or a float, and the two are never confused: `1` and `1.0` are different values
that are written differently.

The members of an object are kept in order. A record has its fields in the
order of its declaration; free-form objects are sorted by name.
-/

namespace Gathering.Json

/-- A JSON number. -/
inductive Number where
  /-- A whole number from `-2^63` to `2^64 - 1`. -/
  | int (n : Int)
  /-- A float. -/
  | float (x : Float)
  deriving DecidableEq

/-- **A JSON value.** -/
inductive Value where
  /-- No value. -/
  | null
  /-- A truth value. -/
  | bool (b : Bool)
  /-- A number. -/
  | number (n : Number)
  /-- A text. -/
  | text (s : String)
  /-- A list of values. -/
  | array (items : List Value)
  /-- Named values, in order. -/
  | object (members : List (String × Value))

instance : Inhabited Value := ⟨.null⟩

end Gathering.Json
