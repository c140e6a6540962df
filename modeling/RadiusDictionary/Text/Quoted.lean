import RadiusDictionary.Text.CharRange
import RadiusDictionary.Text.PrintTables

/-! # Quoted texts

`quoted` writes a text as a string literal: in double quotes, with the usual escapes, and with the
code point in place of every character that cannot be seen or that joins the one before it. -/

namespace RadiusDictionary.Text

/-- Whether a character is drawn upon the one before it. The half-width voicing marks of Japanese
join the character before them too, but each has a place of its own. -/
def isJoining (c : Char) : Bool :=
  inRanges graphemeExtendRanges c && !inRanges [(0xFF9E, 0xFF9F)] c

/-- Whether a character stands for itself in a literal, quotes and backslashes apart. -/
def isShown (c : Char) : Bool :=
  if c.toNat < 128 then 32 ≤ c.toNat && c.toNat < 127
  else !isJoining c && !inRanges ignorableRanges c && !inRanges unprintableRanges c

/-- A character as written inside a literal. -/
def escape (c : Char) : List Char :=
  if c = '\x00' then ['\\', '0']
  else if c = '\t' then ['\\', 't']
  else if c = '\n' then ['\\', 'n']
  else if c = '\r' then ['\\', 'r']
  else if c = '"' then ['\\', '"']
  else if c = '\\' then ['\\', '\\']
  else if isShown c then [c]
  else ['\\', 'u', '\x7b'] ++ Nat.toDigits 16 c.toNat ++ ['\x7d']

/-- The text as a string literal. -/
def quoted (text : String) : String := .ofList ('"' :: text.toList.flatMap escape ++ ['"'])

end RadiusDictionary.Text
