import LispObjects.Proofs.Action.Atomic
import LispObjects.Proofs.Decimal.WholePart
import LispObjects.Proofs.Heap.Growth

namespace LispObjects

/-!
# Streams in an image

What it comes to in an image to read, to peek at and to write a byte or a character.

* `Piece` — bytes and characters, with the operations for either;
* `Piece.runOn_peek`, `Piece.perform_peek` — a peek ends as the read does, and leaves the streams as they
  are;
* `Piece.perform_read_next` and its siblings — a read moves the stream, is told of the end, or is refused
  inside a character;
* `Piece.perform_write` — a write adds the bytes of the piece, or fails and adds nothing.
-/

variable {image : Image} {op : Operation} {f : Fault} {r : Ref .input} {s : InputStream} {v : Value}
  {bs : List UInt8}

/-! ### Values of bytes and characters -/

/-- A number is taken for the byte that is left of it without its places. -/
theorem Action.byteOf_number (d : Decimal) :
    byteOf (.number d) =
      match d.byte? with
      | some b => .ok b
      | none => .error (.notA .number (.number d)) := by
  show (if 0 ≤ d.toInt64.toInt ∧ d.toInt64.toInt ≤ 255
    then pure (UInt8.ofNat d.toInt64.toInt.toNat) else throw _) = _
  by_cases hrange : -1 < d.toRat ∧ d.toRat < 256
  · rw [if_pos (Decimal.toInt64_isByte_iff.mpr hrange), Decimal.toNat_toInt64 hrange.1 hrange.2,
      Decimal.byte?, if_pos hrange]
    rfl
  · rw [if_neg fun hbyte => hrange (Decimal.toInt64_isByte_iff.mp hbyte),
      Decimal.byte?_eq_none_iff.mpr hrange]
    rfl

/-- A byte is got back from its value, which is a small integer. -/
theorem Action.byteOf_ofByte (b : UInt8) : byteOf (.ofByte b) = .ok b := by
  have hb : (b.toNat : ℚ) < 256 := by exact_mod_cast b.toNat_lt
  have hnonneg : (0 : ℚ) ≤ b.toNat := Nat.cast_nonneg _
  have hbyte : (Decimal.ofInt b.toNat).byte? = some b := by
    rw [Decimal.byte?_eq_some_iff, Decimal.toRat_ofInt, Int.cast_natCast]
    exact ⟨by linarith, hb, (Nat.floor_natCast _).symm⟩
  rw [Value.ofByte, byteOf_number, hbyte]

/-- A character is read back from its text. -/
theorem Value.asCharacter_ofCharacter (c : Char) : (ofCharacter c).asCharacter = .ok c := by
  have hchars : (String.ofList [c]).toList = [c] := String.toList_ofList
  simp only [asCharacter, ofCharacter, asString, bind, Except.bind, hchars]
  rfl

/-- The stream with bytes added. -/
def OutputStream.add (s : OutputStream) (bs : List UInt8) : OutputStream :=
  ⟨s.bytes.appendList bs⟩

/-- Bytes that are added stand at the end. -/
@[simp] theorem OutputStream.bytes_add (s : OutputStream) (bs : List UInt8) :
    (s.add bs).bytes.toList = s.bytes.toList ++ bs := by
  simp [add]

/-! ### Failures -/

/-- The streams and the realm are as they were. -/
structure Image.SameStreams (image after : Image) : Prop where
  inputs : after.heap.inputs = image.heap.inputs
  outputs : after.heap.outputs = image.heap.outputs
  realm : after.realm = image.realm

/-- No stream is moved where nothing is done. -/
theorem Image.SameStreams.refl (image : Image) : image.SameStreams image :=
  ⟨rfl, rfl, rfl⟩

/-- An operation that fails without a change moves no stream, although its condition is a new object. -/
theorem Image.perform_of_unmoved (h : op.action.runOn image = (.error f, image)) :
    ∃ condition after, image.perform op = (.error condition, after) ∧
      condition.object.classId = f.category.id ∧ image.SameStreams after := by
  have hgrows := image.heap.grows_report image.realm f
  exact ⟨_, _, perform_of_error h, rfl, hgrows.inputs, hgrows.outputs, rfl⟩

/-! ### Reading -/

namespace Action

variable {read look : InputStream → Option (Value × InputStream)}
  {otherwise : InputStream → Action Value}

/-- A read that finds something gives it and moves the stream. -/
theorem runOn_readWith_some (h : read (image.heap.inputs.read r) = some (v, s)) :
    (readWith (.inputStream r) read otherwise).runOn image =
      (.ok v, { image with heap.inputs := image.heap.inputs.write r s }) := by
  simp only [readWith, inputOf, runOn_bind, runOn_ofExcept, runOn_get, h]
  rfl

/-- A read that finds nothing does what is to be done then. -/
theorem runOn_readWith_none (h : read (image.heap.inputs.read r) = none) :
    (readWith (.inputStream r) read otherwise).runOn image =
      (otherwise (image.heap.inputs.read r)).runOn image := by
  simp only [readWith, inputOf, runOn_bind, runOn_ofExcept, runOn_get, h]

/-- To write back what was read changes nothing. -/
theorem inputs_write_read (inputs : Store .input InputStream) (r : Ref .input) :
    inputs.write r (inputs.read r) = inputs := by
  obtain ⟨cells⟩ := inputs
  obtain ⟨i⟩ := r
  by_cases hi : i < cells.size
  · simp [Store.write, Store.read, Array.setIfInBounds, hi]
  · simp [Store.write, Array.setIfInBounds, hi]

/-- To look at what would be read ends as the reading does, and moves nothing. -/
theorem runOn_readWith_unmoved (h : ∀ s, look s = (read s).map fun next => (next.1, s))
    (hother : ∀ s, Keeps Eq (otherwise s)) (stream : Value) (image : Image) :
    (readWith stream look otherwise).runOn image =
      (((readWith stream read otherwise).runOn image).1, image) := by
  cases stream with
  | inputStream r =>
    have hlook := h (image.heap.inputs.read r)
    cases hread : read (image.heap.inputs.read r) with
    | none =>
      rw [hread] at hlook
      rw [runOn_readWith_none hread, runOn_readWith_none hlook]
      exact Prod.ext rfl (hother _ image).symm
    | some next =>
      rw [hread] at hlook
      rw [runOn_readWith_some hread, runOn_readWith_some hlook, inputs_write_read]
  | _ => rfl

end Action

/-! ### Bytes and characters -/

/-- What streams are read and written by. -/
inductive Piece where
  | byte
  | character
  deriving DecidableEq, Repr

namespace Piece

variable {p : Piece}

/-- Reads the next piece. -/
def read : Piece → Value → Action.AtEnd → Operation
  | byte => .readByte
  | character => .readChar

/-- Looks at the next piece. -/
def peek : Piece → Value → Action.AtEnd → Operation
  | byte => .peekByte
  | character => .peekChar

/-- Writes a piece. -/
def write : Piece → Value → Value → Operation
  | byte => .writeByte
  | character => .writeChar

/-- The value of the next piece, and the stream after it. -/
def next? : Piece → InputStream → Option (Value × InputStream)
  | byte, s => s.readByte?.map fun (b, s) => (.ofByte b, s)
  | character, s => s.readChar?.map fun (c, s) => (.ofCharacter c, s)

/-- The value of the next piece, with the stream left where it is. -/
def look? : Piece → InputStream → Option (Value × InputStream)
  | byte, s => s.peekByte?.map fun b => (.ofByte b, s)
  | character, s => s.peekChar?.map fun c => (.ofCharacter c, s)

/-- What is done where there is no piece. -/
def absent : Piece → Value → Action.AtEnd → InputStream → Action Value
  | byte, stream, atEnd => fun _ => Action.ended stream atEnd
  | character, stream, atEnd => Action.noCharacter stream atEnd

/-- The bytes of the piece that a value stands for. -/
def bytesOf : Piece → Value → Except Fault (List UInt8)
  | byte, v => (Action.byteOf v).map ([·])
  | character, v => v.asCharacter.map Text.Utf8.encodeChar

/-- A number is written as a byte if it is one, and else is blamed. -/
theorem bytesOf_number (d : Decimal) :
    byte.bytesOf (.number d) =
      match d.byte? with
      | some b => .ok [b]
      | none => .error (.notA .number (.number d)) := by
  rw [bytesOf, Action.byteOf_number]
  cases d.byte? <;> rfl

/-- A byte that was read is written as itself. -/
theorem bytesOf_ofByte (b : UInt8) : byte.bytesOf (.ofByte b) = .ok [b] := by
  rw [bytesOf, Action.byteOf_ofByte]
  rfl

/-- A character that was read is written as its encoding. -/
theorem bytesOf_ofCharacter (c : Char) :
    character.bytesOf (.ofCharacter c) = .ok (Text.Utf8.encodeChar c) := by
  rw [bytesOf, Value.asCharacter_ofCharacter]
  rfl

/-- Reading a piece as the general read, which moves past it. -/
theorem action_read (p : Piece) (stream : Value) (atEnd : Action.AtEnd) :
    (p.read stream atEnd).action =
      Action.readWith stream p.next? (p.absent stream atEnd) >>= fun v => pure (.value v) := by
  cases p <;> rfl

/-- Looking at a piece as the general read, which here does not move. -/
theorem action_peek (p : Piece) (stream : Value) (atEnd : Action.AtEnd) :
    (p.peek stream atEnd).action =
      Action.readWith stream p.look? (p.absent stream atEnd) >>= fun v => pure (.value v) := by
  cases p <;> rfl

/-- A look finds what a read would, and stays. -/
theorem look?_eq (p : Piece) (s : InputStream) :
    p.look? s = (p.next? s).map fun next => (next.1, s) := by
  cases p with
  | byte => cases h : s.peekByte? <;> simp [look?, next?, InputStream.readByte?, h]
  | character => cases h : s.peekChar? <;> simp [look?, next?, InputStream.readChar?, h]

/-- Where there is nothing to read, nothing is changed. -/
theorem looks_absent (p : Piece) (stream : Value) (atEnd : Action.AtEnd) (s : InputStream) :
    Action.Keeps Eq (p.absent stream atEnd s) := by
  cases p
  · exact Action.looks_ended stream atEnd
  · exact Action.looks_noCharacter stream atEnd s

/-- **Peeks** end as reads do, in a value or with a fault, and move nothing. -/
theorem runOn_peek (p : Piece) (stream : Value) (atEnd : Action.AtEnd) (image : Image) :
    (p.peek stream atEnd).action.runOn image =
      (((p.read stream atEnd).action.runOn image).1, image) := by
  rw [action_peek, action_read, Action.runOn_bind, Action.runOn_bind,
    Action.runOn_readWith_unmoved p.look?_eq (p.looks_absent stream atEnd)]
  generalize (Action.readWith stream p.next? (p.absent stream atEnd)).runOn image = outcome
  obtain ⟨result, after⟩ := outcome
  cases result <;> rfl

/-- A look moves no stream, whatever it finds. -/
theorem sameStreams_peek (p : Piece) (stream : Value) (atEnd : Action.AtEnd) (image : Image) :
    image.SameStreams (image.perform (p.peek stream atEnd)).2 := by
  have hrun := p.runOn_peek stream atEnd image
  cases hresult : ((p.read stream atEnd).action.runOn image).1 with
  | ok answer =>
    rw [hresult] at hrun
    rw [Image.perform_of_ok hrun]
    exact .refl image
  | error f =>
    rw [hresult] at hrun
    obtain ⟨condition, after, hfail, -, hsame⟩ := Image.perform_of_unmoved hrun
    rw [hfail]
    exact hsame

/-- In an image too a peek answers as the read in its place; a fault of either is reported by the same
    condition. -/
theorem perform_peek (p : Piece) (stream : Value) (atEnd : Action.AtEnd) (image : Image) :
    (image.perform (p.peek stream atEnd)).1 = (image.perform (p.read stream atEnd)).1 := by
  have hpeek := p.runOn_peek stream atEnd image
  have hatomic : Action.Atomic (p.read stream atEnd).action := by
    rw [action_read]
    exact (Action.atomic_readWith (p.looks_absent stream atEnd)).bind_of_total fun _ => .pure _
  cases hread : (p.read stream atEnd).action.runOn image with
  | mk result after =>
    rw [hread] at hpeek
    cases result with
    | ok answer => rw [Image.perform_of_ok hpeek, Image.perform_of_ok hread]
    -- a failed read has moved nothing, so both faults are reported in the same image
    | error f =>
      obtain rfl : after = image := hatomic image f after hread
      rw [Image.perform_of_error hpeek, Image.perform_of_error hread]

/-- If no byte is left, the input has ended. -/
theorem runOn_absent (h : p.next? s = none) (stream : Value) (atEnd : Action.AtEnd) :
    (p.absent stream atEnd s).runOn image = (Action.noCharacter stream atEnd s).runOn image := by
  cases p with
  | character => rfl
  | byte =>
    have hend : s.isAtEnd = true := by
      simpa [next?, InputStream.readByte?, InputStream.peekByte?, InputStream.isAtEnd] using h
    rw [absent, Action.noCharacter, if_pos hend]

/-- A piece that is there is given, whatever was to be told at the end. -/
theorem runOn_read_some (h : p.next? (image.heap.inputs.read r) = some (v, s))
    (atEnd : Action.AtEnd) :
    (p.read (.inputStream r) atEnd).action.runOn image =
      (.ok (.value v), { image with heap.inputs := image.heap.inputs.write r s }) := by
  rw [action_read, Action.runOn_bind, Action.runOn_readWith_some h]
  rfl

/-- Where there is no piece, nothing moves. -/
theorem runOn_read_none (h : p.next? (image.heap.inputs.read r) = none) (atEnd : Action.AtEnd) :
    (p.read (.inputStream r) atEnd).action.runOn image =
      (if (image.heap.inputs.read r).isAtEnd then
        match atEnd with
        | .fault => .error (.endOfFile (.inputStream r))
        | .value v => .ok (.value v)
      else .error (.insideCharacter (.inputStream r)), image) := by
  rw [action_read, Action.runOn_bind, Action.runOn_readWith_none h, runOn_absent h,
    Action.noCharacter]
  by_cases hend : (image.heap.inputs.read r).isAtEnd = true
  · rw [if_pos hend, if_pos hend]
    cases atEnd <;> rfl
  · rw [if_neg hend, if_neg hend]
    rfl

/-- What a read ends in is known from its stream. -/
theorem runOn_read_congr {image' : Image} (h : image'.heap.inputs = image.heap.inputs) (p : Piece)
    (r : Ref .input) (atEnd : Action.AtEnd) :
    ((p.read (.inputStream r) atEnd).action.runOn image').1 =
      ((p.read (.inputStream r) atEnd).action.runOn image).1 := by
  have hstream : image'.heap.inputs.read r = image.heap.inputs.read r := by rw [h]
  cases hnext : p.next? (image.heap.inputs.read r) with
  | some next => rw [runOn_read_some hnext, runOn_read_some (hstream ▸ hnext)]
  | none => rw [runOn_read_none hnext, runOn_read_none (hstream ▸ hnext), hstream]

/-- A piece that is there is the answer. -/
theorem perform_read_next (h : p.next? (image.heap.inputs.read r) = some (v, s))
    (atEnd : Action.AtEnd) :
    image.perform (p.read (.inputStream r) atEnd) =
      (.ok (.value v), { image with heap.inputs := image.heap.inputs.write r s }) :=
  Image.perform_of_ok (runOn_read_some h atEnd)

/-- At the end the reader is given the value of its choice. -/
theorem perform_read_ended (h : p.next? (image.heap.inputs.read r) = none)
    (hend : (image.heap.inputs.read r).isAtEnd = true) (v : Value) :
    image.perform (p.read (.inputStream r) (.value v)) = (.ok (.value v), image) :=
  Image.perform_of_ok (by rw [runOn_read_none h, if_pos hend])

/-- At the end a reader who makes no choice is given an `end-of-file` fault. -/
theorem perform_read_endOfFile (h : p.next? (image.heap.inputs.read r) = none)
    (hend : (image.heap.inputs.read r).isAtEnd = true) :
    ∃ condition after, image.perform (p.read (.inputStream r) .fault) = (.error condition, after) ∧
      condition.object.classId = BuiltinClass.endOfFile.id ∧ image.SameStreams after := by
  have hrun := runOn_read_none h .fault
  rw [if_pos hend] at hrun
  exact Image.perform_of_unmoved hrun

/-- Inside a character the read fails, whatever was to be told at the end. -/
theorem perform_read_inside (h : p.next? (image.heap.inputs.read r) = none)
    (hend : (image.heap.inputs.read r).isAtEnd = false) (atEnd : Action.AtEnd) :
    ∃ condition after, image.perform (p.read (.inputStream r) atEnd) = (.error condition, after) ∧
      condition.object.classId = BuiltinClass.streamError.id ∧ image.SameStreams after := by
  have hrun := runOn_read_none h atEnd
  rw [if_neg (by simp [hend])] at hrun
  exact Image.perform_of_unmoved hrun

/-! ### Writing -/

/-- A write adds the bytes of the piece, if the value stands for one. -/
theorem runOn_write (p : Piece) (stream v : Value) (image : Image) :
    (p.write stream v).action.runOn image =
      match p.bytesOf v with
      | .ok bs =>
        (Action.writeWith stream (·.add bs) >>= fun _ => pure Answer.done : Action Answer).runOn image
      | .error f => (.error f, image) := by
  cases p with
  | byte =>
    simp only [write, Operation.action, Action.writeByte, Action.runOn_bind, Action.runOn_ofExcept,
      bytesOf]
    cases Action.byteOf v <;> rfl
  -- a character is added to the stream as the bytes of its encoding
  | character =>
    simp only [write, Operation.action, Action.writeChar, Action.runOn_bind, Action.runOn_ofExcept,
      bytesOf]
    cases v.asCharacter with
    | error f => rfl
    | ok c =>
      have hwrite : ∀ s : OutputStream, s.writeChar c = s.add (Text.Utf8.encodeChar c) := by
        intro s
        rw [OutputStream.writeChar, OutputStream.writeChars, OutputStream.add,
          Text.Utf8.encode_cons, Text.Utf8.encode_nil, List.append_nil]
      simp only [hwrite, Except.map]

/-- A value that stands for a piece is written by its bytes. -/
theorem perform_write (h : p.bytesOf v = .ok bs) (image : Image) (sink : Ref .output) :
    image.perform (p.write (.outputStream sink) v) =
      (.ok .done, { image with heap.outputs :=
        image.heap.outputs.write sink ((image.heap.outputs.read sink).add bs) }) := by
  refine Image.perform_of_ok ?_
  rw [runOn_write, h]
  rfl

/-- Any other value is refused. -/
theorem perform_write_error (h : p.bytesOf v = .error f) (image : Image) (stream : Value) :
    ∃ condition after, image.perform (p.write stream v) = (.error condition, after) ∧
      image.SameStreams after := by
  have hrun : (p.write stream v).action.runOn image = (.error f, image) := by rw [runOn_write, h]
  obtain ⟨condition, after, hfail, -, hsame⟩ := Image.perform_of_unmoved hrun
  exact ⟨condition, after, hfail, hsame⟩

end Piece

end LispObjects
