import LispObjects.Action.Basic

namespace LispObjects.Action

/-!
# Reading and writing streams

A reader is told at the end of the input either by an `end-of-file` fault or by a value of its choice.
What is to be written is looked at before the stream is.
-/

/-- What a reader is told at the end of the input. -/
inductive AtEnd where
  | fault
  | value (v : Value)

/-- The input stream that the value is. -/
def inputOf : Value → Except Fault (Ref .input)
  | .inputStream r => .ok r
  | v => .error (.notA .inputStream v)

/-- The output stream that the value is. -/
def outputOf : Value → Except Fault (Ref .output)
  | .outputStream r => .ok r
  | v => .error (.notA .outputStream v)

/-- Tells a reader that the input has ended. -/
def ended (stream : Value) : AtEnd → Action Value
  | .fault => fail (.endOfFile stream)
  | .value v => pure v

/-- Reads from an input stream with `read`, and otherwise does `otherwise`. -/
def readWith (stream : Value) (read : InputStream → Option (Value × InputStream))
    (otherwise : InputStream → Action Value) : Action Value := do
  let r ← ofExcept (inputOf stream)
  let input := (← get).heap.inputs.read r
  match read input with
  | some (v, input) =>
    changeHeap fun h => { h with inputs := h.inputs.write r input }
    return v
  | none => otherwise input

/-- The next byte, which is read. -/
def readByte (stream : Value) (atEnd : AtEnd) : Action Value :=
  readWith stream (fun s => s.readByte?.map fun (b, s) => (.ofByte b, s))
    fun _ => ended stream atEnd

/-- The next byte, which stays to be read. -/
def peekByte (stream : Value) (atEnd : AtEnd) : Action Value :=
  readWith stream (fun s => s.peekByte?.map fun b => (.ofByte b, s))
    fun _ => ended stream atEnd

/-- What a reader is told when there is no character: that the input has ended, or that the position
is inside a character. -/
def noCharacter (stream : Value) (atEnd : AtEnd) (s : InputStream) : Action Value :=
  if s.isAtEnd then ended stream atEnd else fail (.insideCharacter stream)

/-- The next character, which is read. -/
def readChar (stream : Value) (atEnd : AtEnd) : Action Value :=
  readWith stream (fun s => s.readChar?.map fun (c, s) => (.ofCharacter c, s))
    (noCharacter stream atEnd)

/-- The next character, which stays to be read. -/
def peekChar (stream : Value) (atEnd : AtEnd) : Action Value :=
  readWith stream (fun s => s.peekChar?.map fun c => (.ofCharacter c, s))
    (noCharacter stream atEnd)

/-- Puts back the character that was just read. -/
def unreadChar (stream character : Value) : Action Unit := do
  let c ← ofExcept character.asCharacter
  let r ← ofExcept (inputOf stream)
  match ((← get).heap.inputs.read r).unreadChar? c with
  | some input => changeHeap fun h => { h with inputs := h.inputs.write r input }
  | none => fail (.notJustRead stream)

/-- The byte that a number is after its places are dropped. -/
def byteOf (v : Value) : Except Fault UInt8 := do
  let n := (← v.asNumber).toInt64.toInt
  if 0 ≤ n ∧ n ≤ 255 then pure (UInt8.ofNat n.toNat) else throw (.notA .number v)

/-- Changes an output stream. -/
def writeWith (stream : Value) (write : OutputStream → OutputStream) : Action Unit := do
  let r ← ofExcept (outputOf stream)
  changeHeap fun h => { h with outputs := h.outputs.write r (write (h.outputs.read r)) }

/-- Writes one byte. -/
def writeByte (stream byte : Value) : Action Unit := do
  let b ← ofExcept (byteOf byte)
  writeWith stream (·.writeByte b)

/-- Writes one character. -/
def writeChar (stream character : Value) : Action Unit := do
  let c ← ofExcept character.asCharacter
  writeWith stream (·.writeChar c)

/-- Writes a text. -/
def writeString (stream text : Value) : Action Unit := do
  let s ← ofExcept text.asString
  writeWith stream (·.writeString s)

/-- Everything written to an output stream. -/
def outputString (stream : Value) : Action Value :=
  query fun _ h => (outputOf stream).map fun r => .string (h.outputs.read r).output

end LispObjects.Action
