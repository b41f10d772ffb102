import Hostlink.Text.Hidden

/-!
# Texts quoted inside messages

`Text.quoted` puts a text between double quotes. Quotes, backslashes and the usual control
characters are escaped by a backslash; every other character that does not show on its own is
written as its code point.
-/

namespace Hostlink.Text

/-- The lower-case hexadecimal digits of a code point, in braces. -/
def codePoint (c : Char) : List Char := '\\' :: 'u' :: '{' :: (Nat.toDigits 16 c.toNat ++ ['}'])

/-- A character of a quoted text. -/
def quotedChar (c : Char) : List Char :=
  if c = '"' then ['\\', '"']
  else if c = '\\' then ['\\', '\\']
  else if c = '\n' then ['\\', 'n']
  else if c = '\r' then ['\\', 'r']
  else if c = '\t' then ['\\', 't']
  else if c.toNat = 0 then ['\\', '0']
  else if c.toNat < 32 ∨ isHidden c then codePoint c
  else [c]

/-- A text in double quotes, every character visible. -/
def quoted (s : String) : String :=
  String.ofList ('"' :: (s.toList.flatMap quotedChar ++ ['"']))

end Hostlink.Text
