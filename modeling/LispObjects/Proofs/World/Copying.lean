import LispObjects.Proofs.Action.Streams
import LispObjects.Proofs.Class.BuiltIn
import LispObjects.Proofs.Heap.WriteLog
import LispObjects.Proofs.Stream.Input
import LispObjects.Proofs.Text.Utf8
import LispObjects.Proofs.World.Run

namespace LispObjects

/-!
# Copying between streams

A text is copied from an input stream to an output stream, by bytes and by characters in any order, with
any number of peeks in between.  A step reads a piece and writes what it was given.

* `Copying.Move`, `Copying.run` — peeks and steps, and the image after a run of them;
* `Copying.Follows` — the output is what was read of the text, and more than that only past the end;
* `Copying.Follows.copy_cases` — all that a step can do;
* `Copying.Follows.run` — a copy that begins with new streams goes on like this;
* `World.copyLaws_run` — what follows for the steps, for the end of the text and for the output.
-/

open LispObjects.Action (AtEnd)
open InputStream (IsBehind EndsOnBoundary)
open Text.Utf8 (encode encodeChar)

/-! ### Steps -/

/-- Two streams between which pieces are copied. -/
structure Copying where
  source : Ref .input
  sink : Ref .output

namespace Copying

/-- What is done in the course of a copy. -/
inductive Move where
  | peek (p : Piece) (atEnd : AtEnd)
  | copy (p : Piece) (atEnd : AtEnd)

variable {c : Copying} {image image' fresh : Image} {text : String} {p : Piece} {atEnd : AtEnd}
  {s s' : InputStream} {v : Value} {log bs : List UInt8} {b : UInt8} {move : Move}
  {moves : List Move}

/-- The input stream. -/
def input (c : Copying) (image : Image) : InputStream :=
  image.heap.inputs.read c.source

/-- The bytes of the output stream. -/
def written (c : Copying) (image : Image) : List UInt8 :=
  (image.heap.outputs.read c.sink).bytes.toList

/-- Reads a piece, and writes what was given, if something was. -/
def copy (c : Copying) (p : Piece) (atEnd : AtEnd) (image : Image) : Image :=
  match image.perform (p.read (.inputStream c.source) atEnd) with
  | (.ok (.value v), after) => (after.perform (p.write (.outputStream c.sink) v)).2
  | (_, after) => after

/-- The image after a move. -/
def after (c : Copying) (image : Image) : Move → Image
  | .peek p atEnd => (image.perform (p.peek (.inputStream c.source) atEnd)).2
  | .copy p atEnd => c.copy p atEnd image

/-- The image after a run of moves, the first of them first. -/
def run (c : Copying) (image : Image) (moves : List Move) : Image :=
  moves.foldl c.after image

/-- The last move of a run is made where the others lead to. -/
@[simp] theorem run_concat (c : Copying) (image : Image) (moves : List Move) (move : Move) :
    c.run image (moves ++ [move]) = c.after (c.run image moves) move := by
  simp [run]

/-- The image with the input stream moved on to `s` and bytes added to the output stream. -/
def advance (c : Copying) (image : Image) (s : InputStream) (bs : List UInt8) : Image :=
  { image with
    heap.inputs := image.heap.inputs.write c.source s
    heap.outputs := image.heap.outputs.write c.sink ((image.heap.outputs.read c.sink).add bs) }

/-- Some step of the run was given its value for the end of the text, and has written it. -/
def WroteEnd (c : Copying) (text : String) (fresh : Image) (moves : List Move) : Prop :=
  ∃ past p v answer, past ++ [.copy p (.value v)] <+: moves ∧
    encode text.toList <+: c.written (c.run fresh past) ∧
    ((c.run fresh past).perform (p.write (.outputStream c.sink) v)).1 = .ok answer

/-- What was written at the end in a run was written in each longer one. -/
theorem WroteEnd.later {moves' : List Move} (h : c.WroteEnd text fresh moves)
    (hmoves : moves <+: moves') : c.WroteEnd text fresh moves' := by
  obtain ⟨past, p, v, answer, hpast, hwrote⟩ := h
  exact ⟨past, p, v, answer, hpast.trans hmoves, hwrote⟩

/-- After a step the source is where it was read to. -/
theorem input_advance (h : image.heap.inputs.Contains c.source) (s : InputStream)
    (bs : List UInt8) : c.input (c.advance image s bs) = s := by
  rw [input, advance, Store.read_write h, if_pos rfl]

/-- After a step the sink has the bytes that were written, at its end. -/
theorem written_advance (h : image.heap.outputs.Contains c.sink) (s : InputStream)
    (bs : List UInt8) : c.written (c.advance image s bs) = c.written image ++ bs := by
  rw [written, advance, Store.read_write h, if_pos rfl, OutputStream.bytes_add, written]

/-! ### What the steps of a copy are -/

/-- Where there is a piece to read and to write, both streams advance. -/
theorem copy_of_next (hnext : p.next? (c.input image) = some (v, s)) (hbytes : p.bytesOf v = .ok bs)
    (atEnd : AtEnd) : c.copy p atEnd image = c.advance image s bs := by
  rw [copy, Piece.perform_read_next hnext]
  dsimp only
  rw [Piece.perform_write hbytes]
  rfl

/-- At the end of the text a step does nothing but write the value that it was given for that. -/
theorem copy_of_ended (hnext : p.next? (c.input image) = none)
    (hend : (c.input image).isAtEnd = true) (v : Value) :
    c.copy p (.value v) image = (image.perform (p.write (.outputStream c.sink) v)).2 := by
  rw [copy, Piece.perform_read_ended hnext hend]

/-- A read that fails is not followed by a write. -/
theorem copy_of_error {condition : Condition}
    (h : image.perform (p.read (.inputStream c.source) atEnd) = (.error condition, image')) :
    c.copy p atEnd image = image' := by
  rw [copy, h]

/-- The next piece of a text has bytes, and the text goes on with them. -/
theorem isBehind_of_next? (hs : IsBehind text s log) (hnext : p.next? s = some (v, s')) :
    ∃ bs, p.bytesOf v = .ok bs ∧ bs ≠ [] ∧ IsBehind text s' (log ++ bs) := by
  -- either kind of piece is written as the bytes that were read for it
  cases p with
  | byte =>
    obtain ⟨⟨b, s''⟩, hread, hpiece⟩ := Option.map_eq_some_iff.mp hnext
    obtain ⟨rfl, rfl⟩ := Prod.mk.inj hpiece
    exact ⟨[b], Piece.bytesOf_ofByte b, List.cons_ne_nil _ _, hs.readByte hread⟩
  | character =>
    obtain ⟨⟨d, s''⟩, hread, hpiece⟩ := Option.map_eq_some_iff.mp hnext
    obtain ⟨rfl, rfl⟩ := Prod.mk.inj hpiece
    have hwidth := Text.Utf8.width_pos d
    refine ⟨encodeChar d, Piece.bytesOf_ofCharacter d, ?_, hs.readChar hread⟩
    rw [← List.length_pos_iff, Text.Utf8.length_encodeChar]
    exact hwidth

/-- What was read is a beginning of the text. -/
theorem isPrefix_of_isBehind (hs : IsBehind text s log) : log <+: encode text.toList := by
  rw [hs.log_eq]
  exact List.take_prefix _ _

/-- At the end of a text there is no next piece. -/
theorem next?_eq_none (hs : IsBehind text s log) (hend : s.isAtEnd = true) : p.next? s = none := by
  rw [Option.eq_none_iff_forall_ne_some]
  rintro ⟨v, s'⟩ hnext
  obtain ⟨bs, -, hne, hs'⟩ := isBehind_of_next? hs hnext
  -- nothing follows the whole text
  have hlength := (isPrefix_of_isBehind hs').length_le
  rw [hs.isAtEnd_iff.mp hend, List.length_append] at hlength
  exact hne (List.length_eq_zero_iff.mp (by omega))

/-! ### The invariant -/

/-- The output is what was read of the text.  Only when that is all of it there may be more. -/
structure Follows (text : String) (c : Copying) (image : Image) : Prop where
  source : image.heap.inputs.Contains c.source
  sink : image.heap.outputs.Contains c.sink
  behind : ∃ log, IsBehind text (c.input image) log ∧ log <+: c.written image ∧
    (c.written image = log ∨ log = encode text.toList)

namespace Follows

/-- The input has ended exactly if the whole text is in the output. -/
theorem isAtEnd_iff (h : Follows text c image) :
    (c.input image).isAtEnd = true ↔ encode text.toList <+: c.written image := by
  obtain ⟨log, hs, hprefix, hlog⟩ := h.behind
  rw [hs.isAtEnd_iff]
  constructor
  · rintro rfl
    exact hprefix
  · intro hall
    rcases hlog with hlog | hlog
    · rw [hlog] at hall
      exact (isPrefix_of_isBehind hs).eq_of_length_le hall.length_le
    · exact hlog

/-- If nothing but text was written, it is what was read. -/
theorem isBehind (h : Follows text c image) (hpart : c.written image <+: encode text.toList) :
    IsBehind text (c.input image) (c.written image) := by
  obtain ⟨log, hs, hprefix, rfl | rfl⟩ := h.behind
  · exact hs
  · rwa [hpart.eq_of_length_le hprefix.length_le]

/-- Before the end what is written is what has been read. -/
theorem isBehind_of_not_isAtEnd (h : Follows text c image)
    (hend : ¬ (c.input image).isAtEnd = true) :
    IsBehind text (c.input image) (c.written image) := by
  obtain ⟨log, hs, hprefix, rfl | rfl⟩ := h.behind
  · exact hs
  · exact absurd (hs.isAtEnd_iff.mpr rfl) hend

/-- At the end there is nothing to read. -/
theorem next?_eq_none (h : Follows text c image) (hend : (c.input image).isAtEnd = true) :
    p.next? (c.input image) = none := by
  obtain ⟨log, hs, -⟩ := h.behind
  exact Copying.next?_eq_none hs hend

/-- What moves no stream changes nothing about the copy. -/
theorem of_sameStreams (h : Follows text c image) (hsame : image.SameStreams image') :
    Follows text c image' := by
  have hinput : c.input image' = c.input image := by rw [input, hsame.inputs, input]
  have hwritten : c.written image' = c.written image := by rw [written, hsame.outputs, written]
  refine ⟨hsame.inputs ▸ h.source, hsame.outputs ▸ h.sink, ?_⟩
  rw [hinput, hwritten]
  exact h.behind

/-- **All that a step can do.** It copies the piece that follows in the text, or moves no stream, or has
    been given its value for the end, and writes it. -/
theorem copy_cases (h : Follows text c image) (p : Piece) (atEnd : AtEnd) :
    (∃ v s bs, p.next? (c.input image) = some (v, s) ∧ p.bytesOf v = .ok bs ∧
        IsBehind text s (c.written image ++ bs) ∧ c.copy p atEnd image = c.advance image s bs) ∨
      image.SameStreams (c.copy p atEnd image) ∨
      ∃ v bs, atEnd = .value v ∧ (c.input image).isAtEnd = true ∧ p.bytesOf v = .ok bs ∧
        c.copy p atEnd image = c.advance image (c.input image) bs := by
  -- at the end only the value that stands for it can be written, before the end only what was read
  by_cases hend : (c.input image).isAtEnd = true
  · have hnone : p.next? (c.input image) = none := h.next?_eq_none hend
    cases atEnd with
    | fault =>
      obtain ⟨condition, image', hfail, -, hsame⟩ := Piece.perform_read_endOfFile hnone hend
      rw [copy_of_error hfail]
      exact .inr (.inl hsame)
    | value v =>
      rw [copy_of_ended hnone hend]
      cases hbytes : p.bytesOf v with
      | ok bs =>
        rw [Piece.perform_write hbytes]
        refine .inr (.inr ⟨v, bs, rfl, hend, hbytes, ?_⟩)
        rw [advance, input, Action.inputs_write_read]
      | error f =>
        obtain ⟨condition, image', hfail, hsame⟩ :=
          Piece.perform_write_error hbytes image (.outputStream c.sink)
        rw [hfail]
        exact .inr (.inl hsame)
  · have hs := h.isBehind_of_not_isAtEnd hend
    cases hnext : p.next? (c.input image) with
    | none =>
      obtain ⟨condition, image', hfail, -, hsame⟩ :=
        Piece.perform_read_inside hnext (Bool.eq_false_iff.mpr hend) atEnd
      rw [copy_of_error hfail]
      exact .inr (.inl hsame)
    | some next =>
      obtain ⟨v, s⟩ := next
      obtain ⟨bs, hbytes, -, hs'⟩ := isBehind_of_next? hs hnext
      exact .inl ⟨v, s, bs, rfl, hbytes, hs', copy_of_next hnext hbytes atEnd⟩

/-! ### Runs -/

/-- An advance keeps to the text if the source still does, and what was written with the new bytes
    follows it. -/
theorem advance (h : Follows text c image)
    (hs : ∃ log, IsBehind text s log ∧ log <+: c.written image ++ bs ∧
      (c.written image ++ bs = log ∨ log = encode text.toList)) :
    Follows text c (c.advance image s bs) where
  source := Store.contains_write.mpr h.source
  sink := Store.contains_write.mpr h.sink
  behind := by
    rw [input_advance h.source, written_advance h.sink]
    exact hs

/-- **One step.** The output stays what was read, and the realm is not touched. -/
theorem copy (h : Follows text c image) (p : Piece) (atEnd : AtEnd) :
    Follows text c (c.copy p atEnd image) ∧ (c.copy p atEnd image).realm = image.realm := by
  rcases h.copy_cases p atEnd with ⟨v, s, bs, -, -, hs, hcopy⟩ | hsame | ⟨v, bs, -, hend, -, hcopy⟩
  · rw [hcopy]
    exact ⟨h.advance ⟨_, hs, List.prefix_refl _, .inl rfl⟩, rfl⟩
  · exact ⟨h.of_sameStreams hsame, hsame.realm⟩
  · rw [hcopy]
    obtain ⟨log, hs, hprefix, -⟩ := h.behind
    exact ⟨h.advance ⟨log, hs, hprefix.trans (List.prefix_append _ _),
      .inr (hs.isAtEnd_iff.mp hend)⟩, rfl⟩

/-- **One move** keeps to the text, and leaves the realm as it is. -/
theorem after (h : Follows text c image) (move : Move) :
    Follows text c (c.after image move) ∧ (c.after image move).realm = image.realm := by
  cases move with
  | peek p atEnd =>
    have hsame := p.sameStreams_peek (.inputStream c.source) atEnd image
    exact ⟨h.of_sameStreams hsame, hsame.realm⟩
  | copy p atEnd => exact h.copy p atEnd

/-- **A run of moves.** The output is what was read, at any time. -/
theorem run (h : Follows text c fresh) (moves : List Move) :
    Follows text c (c.run fresh moves) ∧ (c.run fresh moves).realm = fresh.realm := by
  -- on the moves from the last one, as a run is built by its last move
  induction moves using List.reverseRecOn with
  | nil => exact ⟨h, rfl⟩
  | append_singleton moves move ih =>
    rw [run_concat, ← ih.2]
    exact ih.1.after move

/-- A step that has no value for the end to write adds text only. -/
theorem isPrefix_copy (h : Follows text c image) (hpart : c.written image <+: encode text.toList)
    (hrefused : ∀ v answer, atEnd = .value v → encode text.toList <+: c.written image →
      (image.perform (p.write (.outputStream c.sink) v)).1 ≠ .ok answer) :
    c.written (c.copy p atEnd image) <+: encode text.toList := by
  rcases h.copy_cases p atEnd with ⟨v, s, bs, -, -, hs, hcopy⟩ | hsame | ⟨v, bs, hv, hend, hbs, -⟩
  · rw [hcopy, written_advance h.sink]
    exact isPrefix_of_isBehind hs
  · rw [written, hsame.outputs]
    exact hpart
  · refine absurd ?_ (hrefused v .done hv (h.isAtEnd_iff.mp hend))
    rw [Piece.perform_write hbs]

/-- As long as no value for the end has been written, the output is a beginning of the text. -/
theorem isPrefix_run (h : Follows text c fresh) (hpart : c.written fresh <+: encode text.toList)
    (hno : ¬ c.WroteEnd text fresh moves) :
    c.written (c.run fresh moves) <+: encode text.toList := by
  induction moves using List.reverseRecOn with
  | nil => exact hpart
  | append_singleton moves move ih =>
    have hbefore := ih fun hwrote => hno (hwrote.later (List.prefix_append _ _))
    have hfollows := (h.run moves).1
    rw [run_concat]
    -- a peek writes nothing, and a copy only what comes next, unless it wrote the value at the end
    cases move with
    | peek p atEnd =>
      have hsame := p.sameStreams_peek (.inputStream c.source) atEnd (c.run fresh moves)
      rw [Copying.after, written, hsame.outputs]
      exact hbefore
    | copy p atEnd =>
      refine hfollows.isPrefix_copy hbefore ?_
      rintro v answer rfl hall hanswer
      exact hno ⟨moves, p, v, answer, List.prefix_refl _, hall, hanswer⟩

end Follows

/-! ### What holds of a copy -/

/-- The next step is given the value, whatever it was to be told at the end, and adds the bytes to the
    output. -/
def Copies (c : Copying) (image : Image) (p : Piece) (v : Value) (bs : List UInt8) : Prop :=
  ∀ atEnd, (image.perform (p.read (.inputStream c.source) atEnd)).1 = .ok (.value v) ∧
    c.written (c.copy p atEnd image) = c.written image ++ bs

/-- What the streams of a copy answer in an image that it has come to. -/
structure StepLaws (text : String) (c : Copying) (image : Image) : Prop where
  /-- The output is a beginning of the text, or begins with the whole of it. -/
  progress : c.written image <+: encode text.toList ∨ encode text.toList <+: c.written image
  /-- A step by bytes copies the byte that follows. -/
  byte : ∀ b, c.written image ++ [b] <+: encode text.toList →
    c.Copies image .byte (.ofByte b) [b]
  /-- A step by characters copies the character that follows, -/
  character : ∀ pre d suf, text.toList = pre ++ d :: suf → c.written image = encode pre →
    c.Copies image .character (.ofCharacter d) (encodeChar d)
  /-- and fails inside a character, but not for the end of the text, and moves no stream. -/
  inside : c.written image <+: encode text.toList → ¬ EndsOnBoundary text (c.written image) →
    ∀ atEnd, ∃ condition image',
      image.perform (.readChar (.inputStream c.source) atEnd) = (.error condition, image') ∧
        condition.isA image.realm BuiltinClass.streamError.id = true ∧
        condition.isA image.realm BuiltinClass.endOfFile.id = false ∧
        c.copy .character atEnd image = image' ∧ image.SameStreams image'
  /-- That the text has ended is told exactly if the whole of it is in the output: by a condition, -/
  endOfFile_iff : ∀ p : Piece, (∃ condition,
      (image.perform (p.read (.inputStream c.source) .fault)).1 = .error condition ∧
        condition.isA image.realm BuiltinClass.endOfFile.id = true) ↔
    encode text.toList <+: c.written image
  /-- or by the value for the end, whichever that is. -/
  eofValue_iff : ∀ p : Piece,
    (∀ v, (image.perform (p.read (.inputStream c.source) (.value v))).1 = .ok (.value v)) ↔
      encode text.toList <+: c.written image
  ended_unmoved : encode text.toList <+: c.written image → ∀ (p : Piece) atEnd,
    image.SameStreams (image.perform (p.read (.inputStream c.source) atEnd)).2
  /-- From then on the output reads as the text, with more after it if more has been written. -/
  output_extends : encode text.toList <+: c.written image → ∃ more,
    (image.perform (.outputString (.outputStream c.sink))).1 = .ok (.value (.string (text ++ more)))
  /-- A peek answers what the read would answer in its place, -/
  peek_eq : ∀ (p : Piece) atEnd, (image.perform (p.peek (.inputStream c.source) atEnd)).1 =
    (image.perform (p.read (.inputStream c.source) atEnd)).1
  /-- and what the read answers that comes after it: the same value, or the same fault. -/
  read_after_peek : ∀ (p : Piece) atEnd,
    ((p.read (.inputStream c.source) atEnd).action.runOn
        (image.perform (p.peek (.inputStream c.source) atEnd)).2).1 =
      ((p.peek (.inputStream c.source) atEnd).action.runOn image).1
  peek_unmoved : ∀ (p : Piece) atEnd,
    image.SameStreams (image.perform (p.peek (.inputStream c.source) atEnd)).2

/-- What holds of a copy after the moves.  A value for the end that was written is no text, so the output
    is compared with the text before that happens. -/
structure CopyLaws (text : String) (c : Copying) (fresh : Image) (moves : List Move) : Prop
    extends StepLaws text c (c.run fresh moves) where
  isPrefix : ¬ c.WroteEnd text fresh moves →
    c.written (c.run fresh moves) <+: encode text.toList
  /-- When the whole text has been copied, the output is the text. -/
  output_eq : ¬ c.WroteEnd text fresh moves →
    encode text.toList <+: c.written (c.run fresh moves) →
    ((c.run fresh moves).perform (.outputString (.outputStream c.sink))).1 =
      .ok (.value (.string text))

/-- A condition of a built-in class is of the classes of its lineage. -/
theorem isA_builtIn {r : Realm} {k d : BuiltinClass} {condition : Condition}
    (hb : r.classes.HasBuiltIns) (hclass : condition.object.classId = k.id) :
    condition.isA r d.id = decide (d ∈ k.lineage) := by
  rw [Condition.isA, Realm.isSubclass, hclass, hb.isSubclass_id]

namespace Follows

/-- A piece that is there is read, and what is written is its bytes. -/
theorem copies_next (h : Follows text c image) (hnext : p.next? (c.input image) = some (v, s))
    (hbytes : p.bytesOf v = .ok bs) : c.Copies image p v bs := by
  intro atEnd
  rw [Piece.perform_read_next hnext, copy_of_next hnext hbytes, written_advance h.sink]
  exact ⟨rfl, rfl⟩

/-- The byte that follows what was read is copied. -/
theorem copies_byte (h : Follows text c image)
    (hb : c.written image ++ [b] <+: encode text.toList) :
    c.Copies image .byte (.ofByte b) [b] := by
  have hs := h.isBehind ((List.prefix_append _ _).trans hb)
  obtain ⟨s, hread⟩ := hs.readByte?_gives_iff.mpr hb
  refine h.copies_next (s := s) ?_ (Piece.bytesOf_ofByte b)
  rw [Piece.next?, hread]
  rfl

/-- The next character that is copied is that of the text. -/
theorem copies_character (h : Follows text c image) {pre suf : List Char} {d : Char}
    (htext : text.toList = pre ++ d :: suf) (hwritten : c.written image = encode pre) :
    c.Copies image .character (.ofCharacter d) (encodeChar d) := by
  have hpart : c.written image <+: encode text.toList := by
    rw [hwritten, htext, Text.Utf8.encode_append]
    exact List.prefix_append _ _
  obtain ⟨s, hread⟩ := (h.isBehind hpart).readChar?_gives_iff.mpr ⟨pre, suf, htext, hwritten⟩
  refine h.copies_next (s := s) ?_ (Piece.bytesOf_ofCharacter d)
  rw [Piece.next?, hread]
  rfl

/-- Inside a character no character is copied. -/
theorem inside (h : Follows text c image) (hb : image.realm.classes.HasBuiltIns)
    (hpart : c.written image <+: encode text.toList)
    (hinside : ¬ EndsOnBoundary text (c.written image)) (atEnd : AtEnd) :
    ∃ condition image',
      image.perform (.readChar (.inputStream c.source) atEnd) = (.error condition, image') ∧
        condition.isA image.realm BuiltinClass.streamError.id = true ∧
        condition.isA image.realm BuiltinClass.endOfFile.id = false ∧
        c.copy .character atEnd image = image' ∧ image.SameStreams image' := by
  have hs := h.isBehind hpart
  have hend : ¬ (c.input image).isAtEnd = true := by
    -- a text ends on a boundary
    intro hend
    exact hinside ⟨text.toList, [], (List.append_nil _).symm, hs.isAtEnd_iff.mp hend⟩
  have hnone : Piece.character.next? (c.input image) = none := by
    have hpeek : (c.input image).peekChar? = none := by
      rw [← Option.not_isSome_iff_eq_none, hs.peekChar?_isSome_iff]
      exact fun hpeek => hinside hpeek.2
    rw [Piece.next?, InputStream.readChar?, hpeek]
    rfl
  obtain ⟨condition, image', hfail, hclass, hsame⟩ :=
    Piece.perform_read_inside hnone (Bool.eq_false_iff.mpr hend) atEnd
  refine ⟨condition, image', hfail, ?_, ?_, copy_of_error hfail, hsame⟩
  · rw [isA_builtIn hb hclass]
    decide
  · rw [isA_builtIn hb hclass]
    decide

/-- A piece is given before the end, a fault of another kind inside a character, and the news of the end
    only there. -/
theorem endOfFile_iff (h : Follows text c image) (hb : image.realm.classes.HasBuiltIns) (p : Piece) :
    (∃ condition, (image.perform (p.read (.inputStream c.source) .fault)).1 = .error condition ∧
        condition.isA image.realm BuiltinClass.endOfFile.id = true) ↔
      encode text.toList <+: c.written image := by
  rw [← h.isAtEnd_iff]
  constructor
  · rintro ⟨condition, hfail, hclass⟩
    -- before the end a read gives a piece, or fails in another way
    by_contra hend
    cases hnext : p.next? (c.input image) with
    | some next =>
      rw [Piece.perform_read_next hnext] at hfail
      cases hfail
    | none =>
      obtain ⟨condition', image', hfail', hclass', -⟩ :=
        Piece.perform_read_inside hnext (Bool.eq_false_iff.mpr hend) .fault
      rw [hfail'] at hfail
      cases hfail
      rw [isA_builtIn hb hclass'] at hclass
      exact absurd hclass (by decide)
  · intro hend
    obtain ⟨condition, image', hfail, hclass, -⟩ :=
      Piece.perform_read_endOfFile (h.next?_eq_none hend : p.next? _ = none) hend
    refine ⟨condition, congrArg Prod.fst hfail, ?_⟩
    rw [isA_builtIn hb hclass]
    decide

/-- A reader that is given whatever it asks for at the end is at the end. -/
theorem eofValue_iff (h : Follows text c image) (p : Piece) :
    (∀ v, (image.perform (p.read (.inputStream c.source) (.value v))).1 = .ok (.value v)) ↔
      encode text.toList <+: c.written image := by
  rw [← h.isAtEnd_iff]
  constructor
  · intro hall
    by_contra hend
    cases hnext : p.next? (c.input image) with
    | some next =>
      -- the piece cannot be equal to two values
      have hnil := hall .nil
      have hvoid := hall .void
      rw [Piece.perform_read_next hnext] at hnil hvoid
      cases hnil.symm.trans hvoid
    | none =>
      obtain ⟨condition, image', hfail, -⟩ :=
        Piece.perform_read_inside hnext (Bool.eq_false_iff.mpr hend) (.value .nil)
      have hnil := hall .nil
      rw [hfail] at hnil
      cases hnil
  · intro hend v
    rw [Piece.perform_read_ended (h.next?_eq_none hend) hend]

/-- When all is copied, a read moves no stream any more. -/
theorem ended_unmoved (h : Follows text c image) (hall : encode text.toList <+: c.written image)
    (p : Piece) (atEnd : AtEnd) :
    image.SameStreams (image.perform (p.read (.inputStream c.source) atEnd)).2 := by
  have hend := h.isAtEnd_iff.mpr hall
  have hnone : p.next? (c.input image) = none := h.next?_eq_none hend
  cases atEnd with
  | fault =>
    obtain ⟨condition, image', hfail, -, hsame⟩ := Piece.perform_read_endOfFile hnone hend
    rw [hfail]
    exact hsame
  | value v =>
    rw [Piece.perform_read_ended hnone hend]
    exact .refl image

/-- What is written is a beginning of the text, or the text with more behind it. -/
theorem progress (h : Follows text c image) :
    c.written image <+: encode text.toList ∨ encode text.toList <+: c.written image := by
  obtain ⟨log, hs, hprefix, hlog | rfl⟩ := h.behind
  · rw [hlog]
    exact .inl (isPrefix_of_isBehind hs)
  · exact .inr hprefix

end Follows

/-- What the output reads as. -/
theorem perform_outputString (c : Copying) (image : Image) :
    image.perform (.outputString (.outputStream c.sink)) =
      (.ok (.value (.string (String.ofList (Text.Utf8.decode (c.written image))))), image) := by
  refine Image.perform_of_ok ?_
  rw [Operation.action, Action.runOn_bind, Action.outputString, Action.runOn_query]
  rfl

/-- The bytes of a text read as the text, with more after it if there are more of them. -/
theorem ofList_decode (text : String) (bs : List UInt8) :
    String.ofList (Text.Utf8.decode (encode text.toList ++ bs)) =
      text ++ String.ofList (Text.Utf8.decode bs) := by
  rw [Text.Utf8.decode, Text.Utf8.decodeFrom_encode, String.ofList_append, String.ofList_toList]
  rfl

/-- What was peeked at is read next. -/
theorem read_after_peek (c : Copying) (image : Image) (p : Piece) (atEnd : AtEnd) :
    ((p.read (.inputStream c.source) atEnd).action.runOn
        (image.perform (p.peek (.inputStream c.source) atEnd)).2).1 =
      ((p.peek (.inputStream c.source) atEnd).action.runOn image).1 := by
  have hsame := p.sameStreams_peek (.inputStream c.source) atEnd image
  rw [Piece.runOn_read_congr hsame.inputs, Piece.runOn_peek]

/-- A copy that follows the text keeps the laws. -/
theorem Follows.stepLaws (h : Follows text c image) (hb : image.realm.classes.HasBuiltIns) :
    StepLaws text c image where
  progress := h.progress
  byte _ := h.copies_byte
  character _ _ _ := h.copies_character
  inside := h.inside hb
  endOfFile_iff := h.endOfFile_iff hb
  eofValue_iff := h.eofValue_iff
  ended_unmoved := h.ended_unmoved
  output_extends := by
    rintro ⟨bs, hall⟩
    refine ⟨String.ofList (Text.Utf8.decode bs), ?_⟩
    rw [perform_outputString, ← hall, ofList_decode]
  peek_eq p atEnd := p.perform_peek _ atEnd image
  read_after_peek := read_after_peek c image
  peek_unmoved p atEnd := p.sameStreams_peek _ atEnd image

/-- **Runs of a copy.** What begins with new streams keeps the laws through every run of moves. -/
theorem Follows.copyLaws (h : Follows text c fresh) (hb : fresh.realm.classes.HasBuiltIns)
    (hempty : c.written fresh = []) (moves : List Move) : CopyLaws text c fresh moves := by
  obtain ⟨hfollows, hrealm⟩ := h.run moves
  have hpart : ¬ c.WroteEnd text fresh moves →
      c.written (c.run fresh moves) <+: encode text.toList :=
    h.isPrefix_run (hempty ▸ List.nil_prefix)
  refine { hfollows.stepLaws (hrealm ▸ hb) with isPrefix := hpart, output_eq := ?_ }
  intro hno hall
  have hwritten : c.written (c.run fresh moves) = encode text.toList :=
    (hpart hno).eq_of_length_le hall.length_le
  rw [perform_outputString, hwritten, Text.Utf8.decode_encode, String.ofList_toList]

/-- New streams are at the beginning of a copy. -/
theorem follows_of_new (image : Image) (text : String) :
    ∃ c opened fresh, image.perform (.makeInput text) = (.ok (.value (.inputStream c.source)), opened) ∧
      opened.perform .makeOutput = (.ok (.value (.outputStream c.sink)), fresh) ∧
      Follows text c fresh ∧ c.written fresh = [] ∧ fresh.realm = image.realm := by
  let source := image.heap.inputs.alloc (.ofString text)
  let sink := image.heap.outputs.alloc .empty
  let opened : Image := { image with heap.inputs := source.2 }
  let fresh : Image := { opened with heap.outputs := sink.2 }
  let c : Copying := ⟨source.1, sink.1⟩
  -- both streams are new cells, and nothing is read or written yet
  have hinput : c.input fresh = .ofString text := Store.read_alloc_self _ _
  have hwritten : c.written fresh = [] := by
    rw [written, Store.read_alloc_self]
    rfl
  refine ⟨c, opened, fresh, Image.perform_of_ok rfl, Image.perform_of_ok rfl, ?_, hwritten, rfl⟩
  refine ⟨Store.contains_alloc_self _ _, Store.contains_alloc_self _ _, [], ?_, List.nil_prefix,
    .inl hwritten⟩
  rw [hinput]
  exact IsBehind.of_prefix (List.nil_append _).symm

end Copying

/-! ### Copies in a world -/

namespace World

variable {events : List Event} {i : Nat} {image : Image}

/-- **Copying.** In every world that is ever reached, and for every text: whatever steps a copy from a new
    stream over the text to a new output stream takes, by bytes and by characters, with any peeks in
    between, all of it holds. -/
theorem copyLaws_run (himage : (run events).image? i = some image) (text : String) :
    ∃ c opened fresh, image.perform (.makeInput text) = (.ok (.value (.inputStream c.source)), opened) ∧
      opened.perform .makeOutput = (.ok (.value (.outputStream c.sink)), fresh) ∧
      ∀ moves, Copying.CopyLaws text c fresh moves := by
  obtain ⟨r, hr, rfl⟩ := Option.map_eq_some_iff.mp himage
  obtain ⟨c, opened, fresh, hinput, houtput, hfollows, hempty, hrealm⟩ :=
    Copying.follows_of_new ⟨(run events).heap, r⟩ text
  have hb : fresh.realm.classes.HasBuiltIns := by
    rw [hrealm]
    exact hasBuiltIns_classes hr
  exact ⟨c, opened, fresh, hinput, houtput, hfollows.copyLaws hb hempty⟩

/-- A text with a long character, in the first realm of a world. -/
theorem copyLaws_of_longCharacter :
    ∃ image c opened fresh, (run [.newRealm {}]).image? 0 = some image ∧
      image.perform (.makeInput "aé") = (.ok (.value (.inputStream c.source)), opened) ∧
      opened.perform .makeOutput = (.ok (.value (.outputStream c.sink)), fresh) ∧
      ∀ moves, Copying.CopyLaws "aé" c fresh moves := by
  obtain ⟨g, hg, -⟩ := graph?_run_newRealm {}
  obtain ⟨r, hr, -⟩ := graph?_eq_some_iff.mp hg
  have himage : (run [.newRealm {}]).image? 0 = some ⟨(run [.newRealm {}]).heap, r⟩ := by
    rw [image?, hr, Option.map_some]
  obtain ⟨c, opened, fresh, hcopy⟩ := copyLaws_run himage "aé"
  exact ⟨_, c, opened, fresh, himage, hcopy⟩

end World

end LispObjects
