import Gathering.Decimal.Layout
import Gathering.Json.Value
import Gathering.Text.Utf8
import Gathering.Time.Text

/-!
# Writing JSON

A value is written without space. A string is written with the escapes that the
grammar demands and no other: quote, backslash and control characters, with a
letter where there is one. A float that is no number is written as `null`.
-/

namespace Gathering.Json

/-- A hexadecimal digit. -/
def hexDigit (n : Nat) : Char :=
  if n < 10 then Char.ofNat ('0'.toNat + n) else Char.ofNat ('a'.toNat + n - 10)

/-- A character as it stands in a string. -/
def escapeChar (c : Char) : List Char :=
  if c = '"' then ['\\', '"']
  else if c = '\\' then ['\\', '\\']
  else if c = '\x08' then ['\\', 'b']
  else if c = '\x0c' then ['\\', 'f']
  else if c = '\n' then ['\\', 'n']
  else if c = '\r' then ['\\', 'r']
  else if c = '\t' then ['\\', 't']
  else if c.toNat < 0x20 then
    ['\\', 'u', '0', '0', hexDigit (c.toNat / 16), hexDigit (c.toNat % 16)]
  else [c]

/-- A text between quotes. -/
def quoted (s : String) : String :=
  "\"" ++ String.ofList (s.toList.flatMap escapeChar) ++ "\""

/-- A number as it is written. -/
def Number.render : Number → String
  | .int n => Decimal.signText (n < 0) ++ Decimal.digitText n.natAbs
  | .float x => (Decimal.recordFormOfFloat? x).getD "null"

mutual

/-- **A value as it is written.** -/
def Value.render : Value → String
  | .null => "null"
  | .bool true => "true"
  | .bool false => "false"
  | .number n => n.render
  | .text s => quoted s
  | .array items => "[" ++ renderItems items ++ "]"
  | .object members => "\x7b" ++ renderMembers members ++ "\x7d"

/-- The items of an array with commas between them. -/
def renderItems : List Value → String
  | [] => ""
  | [v] => v.render
  | v :: vs => v.render ++ "," ++ renderItems vs

/-- The members of an object with commas between them. -/
def renderMembers : List (String × Value) → String
  | [] => ""
  | [(name, v)] => quoted name ++ ":" ++ v.render
  | (name, v) :: vs => quoted name ++ ":" ++ v.render ++ "," ++ renderMembers vs

end

/-- The bytes of a value as it is stored. -/
def Value.toBytes (v : Value) : ByteArray :=
  Text.encode v.render

namespace Value

/-- A natural number as a value. -/
def ofNat (n : Nat) : Value := .number (.int n)

/-- An integer as a value. -/
def ofInt (n : Int) : Value := .number (.int n)

/-- A float as a value. -/
def ofFloat (x : Float) : Value := .number (.float x)

/-- An instant as a value. -/
def ofInstant (t : Instant) : Value := .text t.render

/-- An optional part as a value: `null` if it is missing. -/
def ofOption {α : Type} (write : α → Value) : Option α → Value
  | none => .null
  | some a => write a

end Value

end Gathering.Json
