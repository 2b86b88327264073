import Depthwise.Text.Unshown

/-!
# Quoted texts in messages

A text is shown between double quotes.  Quotes, backslashes and the common controls are escaped by
a letter, every other character that would not be seen by its code point in braces.
-/

namespace Depthwise.Text

/-- The code point of `c` in braces. -/
def codeEscape (c : Char) : List Char :=
  ['\\', 'u', '\x7b'] ++ Nat.toDigits 16 c.toNat ++ ['\x7d']

/-- A character as it is shown between quotes. -/
def shown (c : Char) : List Char :=
  if c = '"' then ['\\', '"']
  else if c = '\\' then ['\\', '\\']
  else if c = '\n' then ['\\', 'n']
  else if c = '\r' then ['\\', 'r']
  else if c = '\t' then ['\\', 't']
  else if c.toNat = 0 then ['\\', '0']
  else if c.toNat < 0x20 ∨ c.toNat = 0x7F then codeEscape c
  else if c.toNat < 0x7F then [c]
  else if isUnshown c then codeEscape c
  else [c]

/-- A text between double quotes. -/
def quoted (s : String) : String := String.ofList ('"' :: s.toList.flatMap shown ++ ['"'])

end Depthwise.Text
