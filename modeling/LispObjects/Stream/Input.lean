import LispObjects.Text.Utf8

namespace LispObjects

/-!
# Input streams

A stream over a fixed text that is read byte by byte or character by character. Its position counts
bytes, so reading bytes can leave it inside a character, where no character can be read.
-/

/-- A text and a position in its UTF-8 bytes. -/
structure InputStream where
  text : String
  /-- How many bytes have been read. -/
  position : Nat
  deriving DecidableEq, Repr

namespace InputStream

/-- A stream at the start of a text. -/
def ofString (text : String) : InputStream :=
  ⟨text, 0⟩

/-- The bytes of the text. -/
def bytes (s : InputStream) : List UInt8 :=
  Text.Utf8.encode s.text.toList

/-- Whether all has been read. -/
def isAtEnd (s : InputStream) : Bool :=
  s.bytes.length ≤ s.position

/-- The byte at the position. -/
def peekByte? (s : InputStream) : Option UInt8 :=
  s.bytes[s.position]?

/-- Reads a byte. -/
def readByte? (s : InputStream) : Option (UInt8 × InputStream) :=
  s.peekByte?.map fun b => (b, { s with position := s.position + 1 })

/-- The character of a text whose first byte is at the offset. -/
def charAt? : List Char → Nat → Option Char
  | [], _ => none
  | c :: _, 0 => some c
  | c :: cs, offset + 1 =>
    if offset + 1 < Text.Utf8.width c then none
    else charAt? cs (offset + 1 - Text.Utf8.width c)

/-- The character at the position: none at the end, and none inside a character. -/
def peekChar? (s : InputStream) : Option Char :=
  charAt? s.text.toList s.position

/-- Reads a character. -/
def readChar? (s : InputStream) : Option (Char × InputStream) :=
  s.peekChar?.map fun c => (c, { s with position := s.position + Text.Utf8.width c })

/-- Steps back over `c`, if that is the character just before the position. -/
def unreadChar? (s : InputStream) (c : Char) : Option InputStream :=
  let width := Text.Utf8.width c
  if width ≤ s.position ∧ charAt? s.text.toList (s.position - width) = some c then
    some { s with position := s.position - width }
  else none

end InputStream

end LispObjects
