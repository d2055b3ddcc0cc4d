import LispObjects.Text.Utf8

namespace LispObjects

/-!
# Output streams

A stream that keeps the bytes written to it. Characters and texts are written as UTF-8; single bytes
need not add up to text, and what is no text is replaced when the output is read.
-/

/-- The bytes written so far. -/
structure OutputStream where
  bytes : Array UInt8
  deriving DecidableEq, Repr

namespace OutputStream

/-- A stream to which nothing was written. -/
def empty : OutputStream :=
  ⟨#[]⟩

/-- Writes one byte. -/
def writeByte (s : OutputStream) (b : UInt8) : OutputStream :=
  ⟨s.bytes.push b⟩

/-- Writes the bytes of a text. -/
def writeChars (s : OutputStream) (cs : List Char) : OutputStream :=
  ⟨s.bytes.appendList (Text.Utf8.encode cs)⟩

/-- Writes one character. -/
def writeChar (s : OutputStream) (c : Char) : OutputStream :=
  s.writeChars [c]

/-- Writes a string. -/
def writeString (s : OutputStream) (text : String) : OutputStream :=
  s.writeChars text.toList

/-- Everything written, as text. -/
def output (s : OutputStream) : String :=
  String.ofList (Text.Utf8.decode s.bytes.toList)

end OutputStream

end LispObjects
