/-!
# Text as bytes

Cached values are byte strings, and a byte string need not be text. Reading
one yields its characters one by one, with a gap in the place of every byte
that belongs to no well-formed character. A reader that skips over parts of a
value can then skip over gaps too, and one that needs the text of a part asks
for a part without gaps.

A gap never hides an ASCII character: an ill-formed sequence gives up one
byte, and the reading goes on with the next.
-/

namespace Gathering.Text

/-- The bytes of a text, in UTF-8. -/
def encode (s : String) : ByteArray :=
  s.toUTF8

/-- The characters of the bytes from position `i` on, `none` for each byte that is part of no
well-formed character. -/
def charsFrom (bytes : ByteArray) (i : Nat) : List (Option Char) :=
  if i < bytes.size then
    match bytes.utf8DecodeChar? i with
    | some c => some c :: charsFrom bytes (i + c.utf8Size)
    | none => none :: charsFrom bytes (i + 1)
  else []
termination_by bytes.size - i
decreasing_by
  · have := c.utf8Size_pos
    omega
  · omega

/-- The characters of a byte string, `none` for each byte that is part of no well-formed
character. -/
def chars (bytes : ByteArray) : List (Option Char) :=
  charsFrom bytes 0

/-- The text of the bytes, if they are well-formed UTF-8. -/
def decode? (bytes : ByteArray) : Option String :=
  String.fromUTF8? bytes

end Gathering.Text
