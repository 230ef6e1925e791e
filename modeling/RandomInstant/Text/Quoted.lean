import RandomInstant.Text.GraphemeExtend
import RandomInstant.Text.Printable

/-!
# Quoted text

A text is shown between double quotes so that each character of it can be told on any display.
The quote and the backslash are escaped by a backslash; NUL, tab, carriage return and line feed
have letters of their own; every other character that would not show, or that would melt into the
one before it, is given by its code point in hexadecimal.
-/

namespace RandomInstant.Text

/-- The code point of a character in hexadecimal, between the marks that set it off. -/
def codePointEscape (c : Char) : List Char :=
  ['\\', 'u', '\x7b'] ++ Nat.toDigits 16 c.toNat ++ ['\x7d']

/-- A character as it stands in quoted text. -/
def quotedChar (c : Char) : List Char :=
  if c = '\x00' then ['\\', '0']
  else if c = '\t' then ['\\', 't']
  else if c = '\r' then ['\\', 'r']
  else if c = '\n' then ['\\', 'n']
  else if c = '"' then ['\\', '"']
  else if c = '\\' then ['\\', '\\']
  else if isGraphemeExtend c || !isPrintable c then codePointEscape c
  else [c]

/-- A text between double quotes, every character escaped as it needs. -/
def quoted (s : String) : String :=
  String.ofList ('"' :: s.toList.flatMap quotedChar ++ ['"'])

end RandomInstant.Text
