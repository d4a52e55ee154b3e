/-!
# Patterns of keys

A Redis server lists keys that match a pattern. In a pattern some characters
have a meaning of their own, and a backslash takes it from the character behind
it. The pattern for the keys that begin with a text is the text with a backslash
in front of each such character, and a star behind it.
-/

namespace Gathering.Cache.Glob

/-- Whether a character has a meaning of its own in a pattern, inside a set or outside. -/
def isSpecial (c : Char) : Bool :=
  c == '*' || c == '?' || c == '[' || c == ']' || c == '\\' || c == '^' || c == '-'

/-- A character that stands for itself in a pattern. -/
def literal (c : Char) : List Char :=
  if isSpecial c then ['\\', c] else [c]

/-- **The pattern of the keys that begin with a text.** -/
def beginningWith (start : String) : String :=
  String.ofList (start.toList.flatMap literal ++ ['*'])

end Gathering.Cache.Glob
