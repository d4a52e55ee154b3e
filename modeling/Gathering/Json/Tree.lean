import Gathering.Text.Utf8

/-!
# JSON as it is written

A stored value is read in two steps. The first, in this module, knows the
grammar only: it turns the characters of a value into a **tree** that keeps
every number and every string as it was written. The second step
(`Gathering.Json.Reading`) asks a part of the tree for what it stands for.

Two steps are needed because a reader looks only at the parts it knows. A part
that nobody asks for has to follow the grammar, but nothing more: its numbers
may be of any size, its strings may hold bytes that are no text and escapes
that are no character, and it may be nested to any depth.
-/

namespace Gathering.Json

/-- One element of a string between its quotes. -/
inductive Piece where
  /-- A character that stands for itself, or a byte that is part of no character. -/
  | plain (c : Option Char)
  /-- A 16-bit code unit, written as four hexadecimal digits. -/
  | unit (n : Nat)
  deriving DecidableEq, Repr

/-- A number as it is written. -/
structure Numeral where
  /-- Whether a minus sign comes first. -/
  negative : Bool
  /-- The digits before the point. -/
  whole : List Char
  /-- The digits after the point, if there is one. -/
  fraction : Option (List Char)
  /-- The sign and the digits of the exponent, if there is one. -/
  exponent : Option (Bool × List Char)
  deriving DecidableEq, Repr

/-- **A JSON value as it is written.** -/
inductive Tree where
  /-- The word `null`. -/
  | null
  /-- One of the words `true` and `false`. -/
  | bool (b : Bool)
  /-- A number. -/
  | number (n : Numeral)
  /-- A string. -/
  | text (pieces : List Piece)
  /-- An array of values. -/
  | array (items : List Tree)
  /-- An object: names with values, in the order in which they are written. -/
  | object (members : List (List Piece × Tree))

/-- The characters of a value, with a gap for each byte that is part of no character. -/
abbrev Glyphs := List (Option Char)

/-! ## Words and runs -/

/-- Whether a character may stand between the parts of a value. -/
def isSpace (g : Option Char) : Bool :=
  g == some ' ' || g == some '\n' || g == some '\t' || g == some '\r'

/-- The characters from the next part of the value on. -/
def skipSpace (gs : Glyphs) : Glyphs :=
  gs.dropWhile isSpace

/-- The digit that a character is. -/
def digit? (g : Option Char) : Option Char :=
  g.filter Char.isDigit

/-- Splits off the longest run of digits. -/
def splitDigits (gs : Glyphs) : List Char × Glyphs :=
  ((gs.takeWhile fun g => (digit? g).isSome).filterMap id, gs.dropWhile fun g => (digit? g).isSome)

/-- What follows a word, which must come first. -/
def afterWord? (word : List Char) (gs : Glyphs) : Option Glyphs :=
  if gs.take word.length = word.map some then some (gs.drop word.length) else none

/-! ## Numbers -/

/-- The digits before the point: no zero in front of another digit. -/
def whole? (gs : Glyphs) : Option (List Char × Glyphs) :=
  let (digits, rest) := splitDigits gs
  match digits with
  | [] => none
  | ['0'] => some (['0'], rest)
  | '0' :: _ => none
  | digits => some (digits, rest)

/-- The fraction, if a point follows; a point needs a digit behind it. -/
def fraction? : Glyphs → Option (Option (List Char) × Glyphs)
  | some '.' :: gs =>
    let (digits, rest) := splitDigits gs
    if digits.isEmpty then none else some (some digits, rest)
  | gs => some (none, gs)

/-- The exponent behind its letter: an optional sign and at least one digit. -/
def signedDigits? (gs : Glyphs) : Option ((Bool × List Char) × Glyphs) :=
  let (negative, gs) :=
    match gs with
    | some '+' :: gs => (false, gs)
    | some '-' :: gs => (true, gs)
    | gs => (false, gs)
  let (digits, rest) := splitDigits gs
  if digits.isEmpty then none else some ((negative, digits), rest)

/-- The exponent, if its letter follows. -/
def exponent? : Glyphs → Option (Option (Bool × List Char) × Glyphs)
  | some 'e' :: gs => (signedDigits? gs).map fun (e, rest) => (some e, rest)
  | some 'E' :: gs => (signedDigits? gs).map fun (e, rest) => (some e, rest)
  | gs => some (none, gs)

/-- A number behind its sign. -/
def unsigned? (negative : Bool) (gs : Glyphs) : Option (Numeral × Glyphs) := do
  let (whole, gs) ← whole? gs
  let (fraction, gs) ← fraction? gs
  let (exponent, gs) ← exponent? gs
  some (⟨negative, whole, fraction, exponent⟩, gs)

/-- A number. -/
def numeral? : Glyphs → Option (Numeral × Glyphs)
  | some '-' :: gs => unsigned? true gs
  | gs => unsigned? false gs

/-! ## Strings -/

/-- The value of a hexadecimal digit. -/
def hexValue? (c : Char) : Option Nat :=
  if c.isDigit then some (c.toNat - '0'.toNat)
  else if 'a' ≤ c ∧ c ≤ 'f' then some (c.toNat - 'a'.toNat + 10)
  else if 'A' ≤ c ∧ c ≤ 'F' then some (c.toNat - 'A'.toNat + 10)
  else none

/-- The number of four hexadecimal digits. -/
def codeUnit? (a b c d : Option Char) : Option Nat := do
  let a ← a.bind hexValue?
  let b ← b.bind hexValue?
  let c ← c.bind hexValue?
  let d ← d.bind hexValue?
  some (((a * 16 + b) * 16 + c) * 16 + d)

/-- The character that a letter behind a backslash stands for. -/
def escaped? : Option Char → Option Char
  | some '"' => some '"'
  | some '\\' => some '\\'
  | some '/' => some '/'
  | some 'b' => some '\x08'
  | some 'f' => some '\x0c'
  | some 'n' => some '\n'
  | some 'r' => some '\r'
  | some 't' => some '\t'
  | _ => none

/-- Whether a character may stand in a string as itself. -/
def isPlain (g : Option Char) : Bool :=
  match g with
  | some c => 0x20 ≤ c.toNat
  | none => true

/-- The string behind its opening quote, up to its closing quote. -/
def pieces? : Glyphs → Option (List Piece × Glyphs)
  | [] => none
  | some '"' :: gs => some ([], gs)
  | some '\\' :: some 'u' :: a :: b :: c :: d :: gs => do
    let n ← codeUnit? a b c d
    let (rest, gs) ← pieces? gs
    some (.unit n :: rest, gs)
  | some '\\' :: g :: gs => do
    let c ← escaped? g
    let (rest, gs) ← pieces? gs
    some (.plain (some c) :: rest, gs)
  | g :: gs =>
    if isPlain g ∧ g ≠ some '\\' then do
      let (rest, gs) ← pieces? gs
      some (.plain g :: rest, gs)
    else none

/-! ## Values -/

mutual

/-- A value at the front, nested at most `fuel` deep. -/
def value? : Nat → Glyphs → Option (Tree × Glyphs)
  | 0, _ => none
  | fuel + 1, gs =>
    match skipSpace gs with
    | some 'n' :: rest => (afterWord? ['u', 'l', 'l'] rest).map fun rest => (.null, rest)
    | some 't' :: rest => (afterWord? ['r', 'u', 'e'] rest).map fun rest => (.bool true, rest)
    | some 'f' :: rest => (afterWord? ['a', 'l', 's', 'e'] rest).map fun rest => (.bool false, rest)
    | some '"' :: rest => (pieces? rest).map fun (pieces, rest) => (.text pieces, rest)
    | some '[' :: rest =>
      match skipSpace rest with
      | some ']' :: rest => some (.array [], rest)
      | rest => (items? fuel rest).map fun (items, rest) => (.array items, rest)
    | some '{' :: rest =>
      match skipSpace rest with
      | some '}' :: rest => some (.object [], rest)
      | rest => (members? fuel rest).map fun (members, rest) => (.object members, rest)
    | rest => (numeral? rest).map fun (n, rest) => (.number n, rest)

/-- The items of an array, at least one, up to its closing bracket. -/
def items? : Nat → Glyphs → Option (List Tree × Glyphs)
  | 0, _ => none
  | fuel + 1, gs => do
    let (item, gs) ← value? fuel gs
    match skipSpace gs with
    | some ',' :: gs =>
      let (items, gs) ← items? fuel gs
      some (item :: items, gs)
    | some ']' :: gs => some ([item], gs)
    | _ => none

/-- The members of an object, at least one, up to its closing brace. -/
def members? : Nat → Glyphs → Option (List (List Piece × Tree) × Glyphs)
  | 0, _ => none
  | fuel + 1, gs => do
    let gs ← match skipSpace gs with
      | some '"' :: gs => some gs
      | _ => none
    let (name, gs) ← pieces? gs
    let gs ← match skipSpace gs with
      | some ':' :: gs => some gs
      | _ => none
    let (value, gs) ← value? fuel gs
    match skipSpace gs with
    | some ',' :: gs =>
      let (members, gs) ← members? fuel gs
      some ((name, value) :: members, gs)
    | some '}' :: gs => some ([(name, value)], gs)
    | _ => none

end

/-- **The tree of a text**: one value with nothing but space around it. Each step into a value
passes at least one character, so twice the number of characters is deep enough. -/
def Tree.ofGlyphs? (gs : Glyphs) : Option Tree := do
  let (tree, rest) ← value? (2 * gs.length + 1) gs
  if (skipSpace rest).isEmpty then some tree else none

/-- The tree of a byte string. -/
def Tree.ofBytes? (bytes : ByteArray) : Option Tree :=
  Tree.ofGlyphs? (Text.chars bytes)

end Gathering.Json
