import LispObjects.Text.Unprintable

namespace LispObjects.Text

/-!
# Quoted text

A text between quote marks, in which every character can be seen: the mark and the backslash take a
backslash, four controls have letters of their own, and any other unprintable character is written
as its code point in lowercase hexadecimal digits between braces. The mark that does not enclose the
text is left alone.
-/

/-- The code point between braces, after a backslash and the letter `u`. -/
def codePointEscape (c : Char) : List Char :=
  '\\' :: 'u' :: '{' :: (Nat.toDigits 16 c.toNat ++ ['}'])

/-- How a character is written between two `mark`s. -/
def escape (mark c : Char) : List Char :=
  if c = mark ∨ c = '\\' then ['\\', c]
  else if c = '\x00' then ['\\', '0']
  else if c = '\t' then ['\\', 't']
  else if c = '\n' then ['\\', 'n']
  else if c = '\r' then ['\\', 'r']
  else if isPrintable c then [c]
  else codePointEscape c

/-- The text between two `mark`s. -/
def quoted (mark : Char) (cs : List Char) : List Char :=
  mark :: (cs.flatMap (escape mark) ++ [mark])

/-- A string in double quotes. -/
def quoteString (s : String) : String :=
  String.ofList (quoted '"' s.toList)

/-- A character in single quotes. -/
def quoteChar (c : Char) : String :=
  String.ofList (quoted '\'' [c])

end LispObjects.Text
