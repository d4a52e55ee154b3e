import Gathering.Text.Utf8

/-!
# Reading back text

The bytes of a text are read as its characters, and there is no gap among them
(`Text.chars_encode`). So whoever reads what this library has stored reads the
characters that it has written.

A character takes up one to four bytes, and how many can be seen from the first of
them. So the reader, which goes on by what it has read, finds the first byte of the
next character behind the last one of this. The lemmas read behind any bytes that
come before, as the reader does in the middle of a text.
-/

namespace Gathering.Text

theorem size_utf8Encode_singleton (c : Char) : [c].utf8Encode.size = c.utf8Size := by
  rw [List.utf8Encode_singleton, List.size_toByteArray, String.length_utf8EncodeChar]

/-- Behind other bytes, the first character is read. -/
theorem utf8DecodeChar?_append (before : ByteArray) (c : Char) (cs : List Char) :
    (before ++ (c :: cs).utf8Encode).utf8DecodeChar? before.size = some c := by
  rw [ByteArray.utf8DecodeChar?_eq_utf8DecodeChar?_extract,
    ByteArray.extract_append_eq_right rfl ByteArray.size_append]
  exact List.utf8DecodeChar?_utf8Encode_cons

/-- Behind other bytes, the bytes of characters are read as these characters. -/
theorem charsFrom_append (before : ByteArray) (cs : List Char) :
    charsFrom (before ++ cs.utf8Encode) before.size = cs.map some := by
  induction cs generalizing before with
  | nil =>
    rw [List.utf8Encode_nil, ByteArray.append_empty]
    unfold charsFrom
    rw [if_neg (Nat.lt_irrefl _)]
    rfl
  | cons c cs ih =>
    have hcons : before ++ (c :: cs).utf8Encode = (before ++ [c].utf8Encode) ++ cs.utf8Encode := by
      rw [List.utf8Encode_cons, ByteArray.append_assoc]
    have hsize : (before ++ [c].utf8Encode).size = before.size + c.utf8Size := by
      rw [ByteArray.size_append, size_utf8Encode_singleton]
    have hlt : before.size < (before ++ (c :: cs).utf8Encode).size := by
      rw [hcons, ByteArray.size_append, hsize]
      have := c.utf8Size_pos
      omega
    unfold charsFrom
    rw [if_pos hlt, utf8DecodeChar?_append]
    show some c :: charsFrom _ (before.size + c.utf8Size) = _
    rw [hcons, ← hsize, ih]
    rfl

/-- **The bytes of a text are read as its characters.** -/
theorem chars_encode (s : String) : chars (encode s) = s.toList.map some := by
  have hbytes : encode s = ByteArray.empty ++ s.toList.utf8Encode := by
    rw [ByteArray.empty_append, String.utf8Encode_toList]
    rfl
  unfold chars
  rw [hbytes]
  exact charsFrom_append .empty s.toList

end Gathering.Text
