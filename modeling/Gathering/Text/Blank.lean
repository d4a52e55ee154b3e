/-!
# Blank characters

Identifiers, action names and configuration values are read with the blank
space around them removed. *Blank* is the White_Space property of Unicode,
which is wider than ASCII space: it holds the line and paragraph separators,
the no-break space and the ideographic space, and it does not hold the
zero-width characters.

A text is **blank** when nothing else is in it, and `trim` removes the blank
characters at both ends and none in between.
-/

namespace Gathering.Text

/-- **The White_Space property of Unicode**: 25 code points. -/
def isBlankChar (c : Char) : Bool :=
  let n := c.toNat
  (0x09 ≤ n && n ≤ 0x0D) || n == 0x20 || n == 0x85 || n == 0xA0 || n == 0x1680 ||
    (0x2000 ≤ n && n ≤ 0x200A) || n == 0x2028 || n == 0x2029 || n == 0x202F ||
    n == 0x205F || n == 0x3000

/-- The characters left after the leading blank ones and the trailing blank ones are dropped. -/
def trimChars (cs : List Char) : List Char :=
  ((cs.dropWhile isBlankChar).reverse.dropWhile isBlankChar).reverse

/-- The text without the blank characters at its ends. -/
def trim (s : String) : String :=
  String.ofList (trimChars s.toList)

/-- Whether the text holds no character but blank ones; the empty text is blank. -/
def isBlank (s : String) : Bool :=
  s.toList.all isBlankChar

/-- The text with its ASCII capitals made small; every other character stays. -/
def lowercaseAscii (s : String) : String :=
  s.map Char.toLower

example : trim "\u3000 a b\t" = "a b" := by decide +kernel

example : isBlank "\u2003\u00A0" = true ∧ isBlank "\u200B" = false := by decide +kernel

end Gathering.Text
